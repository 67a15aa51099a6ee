import LineTint.Proofs.Entry
import LineTint.Proofs.History
import Mathlib.Data.List.Induction

namespace LineTint.Cache

variable {ε : Type}

def getOrInsert (c : Cache) (line : LineId) (g : Generation) (result : Except ε (List Token)) :
    Except ε (List Token) × Cache :=
  Id.run (c.getOrInsertM line g (pure result))

def counted (result : Except ε (List Token)) : StateM Nat (Except ε (List Token)) := do
  modify (· + 1)
  return result

inductive Call (ε : Type) where
  | store (line : LineId) (tokens : List Token) (generation : Generation)
  | getOrInsert (line : LineId) (generation : Generation) (result : Except ε (List Token))
  | invalidate (line : LineId)
  | clear
  | retain (generation : Generation)

def perform (c : Cache) : Call ε → Cache
  | .store line tokens g => c.store line tokens g
  | .getOrInsert line g result => (c.getOrInsert line g result).2
  | .invalidate line => c.invalidate line
  | .clear => .empty
  | .retain g => c.retain g

def run (c : Cache) (calls : List (Call ε)) : Cache := calls.foldl perform c

/-- A result that is at hand is not written, and neither is one that is a failure. -/
def Writes (c : Cache) (call : Call ε) (line : LineId) (entry : Entry) : Prop :=
  match call with
  | .store l tokens g => l = line ∧ entry = ⟨g, tokens⟩
  | .getOrInsert l g result =>
      l = line ∧ c.fetch l g = none ∧ ∃ tokens, result = .ok tokens ∧ entry = ⟨g, tokens⟩
  | _ => False

def Call.Removes (call : Call ε) (line : LineId) (entry : Entry) : Prop :=
  match call with
  | .invalidate l => l = line
  | .clear => True
  | .retain g => g ≠ entry.generation
  | _ => False

def writeRule (line : LineId) : WriteRule Cache (Call ε) Entry where
  step := perform
  Writes c call := c.Writes call line
  Removes _ call := call.Removes line

/-- The latest write for the line was this entry, and it has not been removed since. -/
def LastWrote (calls : List (Call ε)) (line : LineId) (entry : Entry) : Prop :=
  (writeRule line).Last {} calls entry

theorem getOrInsert_eq (c : Cache) (line : LineId) (g : Generation) (result : Except ε (List Token)) :
    c.getOrInsert line g result =
      match c.fetch line g, result with
      | some tokens, _ => (.ok tokens, c)
      | none, .ok tokens => (.ok tokens, c.store line tokens g)
      | none, .error cause => (.error cause, c) := by
  unfold getOrInsert getOrInsertM
  cases c.fetch line g with
  | some tokens => rfl
  | none => cases result <;> rfl

theorem getOrInsertM_counted (c : Cache) (line : LineId) (g : Generation)
    (result : Except ε (List Token)) (n : Nat) :
    Id.run ((c.getOrInsertM line g (counted result)).run n) =
      (c.getOrInsert line g result, if c.fetch line g = none then n + 1 else n) := by
  unfold getOrInsert getOrInsertM counted
  cases c.fetch line g with
  | some tokens => simp
  | none => cases result <;> simp

theorem find?_perform_getOrInsert (c : Cache) (l : LineId) (g : Generation)
    (result : Except ε (List Token)) (line : LineId) (entry : Entry) :
    (c.perform (.getOrInsert l g result)).find? line = some entry ↔
      c.Writes (.getOrInsert l g result) line entry ∨
        (∀ e, ¬ c.Writes (.getOrInsert l g result) line e) ∧ c.find? line = some entry := by
  simp only [perform, Writes, getOrInsert_eq]
  cases c.fetch l g with
  | some tokens => simp
  | none =>
      cases result with
      | error cause => simp
      | ok tokens =>
          rw [find?_store]
          by_cases hl : l = line <;> simp [hl, eq_comm]

theorem find?_perform_iff (c : Cache) (call : Call ε) (line : LineId) (entry : Entry) :
    (c.perform call).find? line = some entry ↔
      c.Writes call line entry ∨
        ¬ call.Removes line entry ∧ (∀ e, ¬ c.Writes call line e) ∧ c.find? line = some entry := by
  cases call with
  | store l tokens g =>
      simp only [perform, Writes, Call.Removes, find?_store]
      by_cases hl : l = line <;> simp [hl, eq_comm]
  | getOrInsert l g result => simpa [Call.Removes] using find?_perform_getOrInsert c l g result line entry
  | invalidate l =>
      simp only [perform, Writes, Call.Removes, find?_invalidate]
      by_cases hl : l = line <;> simp [hl]
  | clear =>
      have hempty : (Cache.empty.find? line) = none := find?_empty line
      simp [perform, Writes, Call.Removes, hempty]
  | retain g =>
      simp only [perform, Writes, Call.Removes, find?_retain, Option.filter_eq_some_iff]
      simp [and_comm, eq_comm]

theorem find?_run_iff {calls : List (Call ε)} {line : LineId} {entry : Entry} :
    (run {} calls).find? line = some entry ↔ LastWrote calls line entry := by
  -- The last call decides, and it leaves either its own entry or what the calls before it left.
  induction calls using List.reverseRecOn generalizing entry with
  | nil =>
      refine ⟨fun h => ?_, fun h => absurd h ((writeRule line).last_nil {} entry)⟩
      cases h
  | append_singleton calls call ih =>
      have hrun : run {} (calls ++ [call]) = (run {} calls).perform call := List.foldl_append
      rw [hrun, find?_perform_iff, ih]
      exact (writeRule line).last_concat.symm

theorem isEmpty_iff_size {c : Cache} : c.isEmpty = true ↔ c.size = 0 := by
  rw [isEmpty, Table.isEmpty, List.isEmpty_iff]
  exact List.length_eq_zero_iff.symm

/-- A cache holds of each line what was written last, unless that has been removed since. It computes
exactly where it finds nothing under the generation asked for, and a failure changes nothing that is
found, under any generation. -/
theorem run_lastWrote (calls : List (Call ε)) :
    let c := run {} calls
    (∀ line g tokens, c.fetch line g = some tokens ↔ LastWrote calls line ⟨g, tokens⟩) ∧
      (∀ line g (result : Except ε (List Token)) n,
        Id.run ((c.getOrInsertM line g (counted result)).run n) =
          (c.getOrInsert line g result, if c.fetch line g = none then n + 1 else n)) ∧
      (∀ line g (result : Except ε (List Token)),
        (c.getOrInsert line g result).1 = match c.fetch line g with
          | some tokens => .ok tokens
          | none => result) ∧
      (∀ line g (cause : ε) l g', (c.getOrInsert line g (.error cause)).2.fetch l g' = c.fetch l g') ∧
      (∃ lines : List LineId, lines.Nodup ∧ lines.length = c.size ∧
        ∀ line, line ∈ lines ↔ ∃ entry, LastWrote calls line entry) ∧
      (c.isEmpty = true ↔ c.size = 0) := by
  intro c
  refine ⟨?_, ?_, ?_, ?_, ?_, isEmpty_iff_size⟩
  · intro line g tokens
    rw [fetch_eq_some_iff, find?_run_iff]
  · intro line g result n
    exact getOrInsertM_counted c line g result n
  · intro line g result
    rw [getOrInsert_eq]
    cases c.fetch line g with
    | some tokens => rfl
    | none => cases result <;> rfl
  · intro line g cause l g'
    rw [getOrInsert_eq]
    cases c.fetch line g <;> rfl
  · refine ⟨c.table.keys, c.table.nodup, List.length_map _, fun line => ?_⟩
    rw [Table.mem_keys_iff]
    apply exists_congr
    intro entry
    exact find?_run_iff

-- A stale entry outlives a computation that fails.
example :
    let c := run {} [.store 4 [] 1, .getOrInsert 4 2 (.error ()), .retain 1]
    c.fetch 4 1 = some [] ∧ c.fetch 4 2 = none ∧ c.size = 1 := by
  decide

end LineTint.Cache
