import LineTint.Query

namespace LineTint.QuerySlot

inductive Call where
  | prepare (grammar : Option Grammar)
  | reset
deriving DecidableEq

def Call.grammar? : Call → Option Grammar
  | .prepare grammar => grammar
  | .reset => none

section
variable {m : Type → Type} [Monad m] {Query : Type}

def performM (compile : Grammar → m (Option Query)) (s : QuerySlot Query) : Call → m (QuerySlot Query)
  | .prepare grammar => s.prepareM compile grammar
  | .reset => pure s.reset

def runM (compile : Grammar → m (Option Query)) (s : QuerySlot Query) (calls : List Call) :
    m (QuerySlot Query) :=
  calls.foldlM (performM compile) s

end

variable {Query : Type}

def perform (compile : Grammar → Option Query) (s : QuerySlot Query) (call : Call) : QuerySlot Query :=
  Id.run (s.performM (fun g => pure (compile g)) call)

def run (compile : Grammar → Option Query) (s : QuerySlot Query) (calls : List Call) : QuerySlot Query :=
  Id.run (s.runM (fun g => pure (compile g)) calls)

theorem perform_prepare (compile : Grammar → Option Query) (s : QuerySlot Query) (grammar : Option Grammar) :
    s.perform compile (.prepare grammar) = s.prepare compile grammar := rfl

theorem perform_reset (compile : Grammar → Option Query) (s : QuerySlot Query) :
    s.perform compile .reset = s.reset := rfl

def noting (compile : Grammar → Option Query) (g : Grammar) : StateM (List Grammar) (Option Query) := do
  modify (· ++ [g])
  return compile g

def stretches (calls : List Call) : List (List Call) := calls.splitOnP (· = .reset)

def lastStretch (calls : List Call) : List Call := (stretches calls).getLast (List.splitOnP_ne_nil _ _)

def firstOffer (calls : List Call) : Option Grammar := calls.findSome? Call.grammar?

/-- Where compiling this grammar leads, if there is one. -/
def settledOn (compile : Grammar → Option Query) : Option Grammar → QueryState Query
  | none => .unprepared
  | some g =>
    match compile g with
    | some q => .ready q
    | none => .failed

def compiles (compile : Grammar → Option Query) (grammar : Option Grammar) : Bool :=
  (grammar.bind compile).isSome

def bumps (compile : Grammar → Option Query) (s : QuerySlot Query) : List Call → Nat
  | [] => 0
  | call :: calls =>
    (if (s.perform compile call).generation = s.generation then 0 else 1) +
      (s.perform compile call).bumps compile calls

@[elab_as_elim]
theorem stretch_induction {motive : List Call → Prop} (calls : List Call)
    (last : ∀ calls, Call.reset ∉ calls → motive calls)
    (more : ∀ first rest, Call.reset ∉ first → motive rest → motive (first ++ .reset :: rest)) :
    motive calls := by
  by_cases h : Call.reset ∈ calls
  · obtain ⟨first, rest, hcalls, hfirst⟩ := List.eq_append_cons_of_mem h
    have hlt : rest.length < calls.length := by
      rw [hcalls, List.length_append, List.length_cons]
      omega
    rw [hcalls]
    exact more first rest hfirst (stretch_induction rest last more)
  · exact last calls h
termination_by calls.length

theorem exists_offers {calls : List Call} (h : .reset ∉ calls) :
    ∃ offers : List (Option Grammar), calls = offers.map .prepare := by
  induction calls with
  | nil => exact ⟨[], rfl⟩
  | cons call calls ih =>
      obtain ⟨hcall, hcalls⟩ : .reset ≠ call ∧ .reset ∉ calls := by simpa using h
      obtain ⟨offers, rfl⟩ := ih hcalls
      cases call with
      | reset => exact absurd rfl hcall
      | prepare grammar => exact ⟨grammar :: offers, rfl⟩

theorem firstOffer_cons (grammar : Option Grammar) (calls : List Call) :
    firstOffer (.prepare grammar :: calls) = grammar.or (firstOffer calls) := by
  cases grammar <;> rfl

theorem stretches_of_not_mem {calls : List Call} (h : .reset ∉ calls) : stretches calls = [calls] := by
  apply List.splitOnP_eq_singleton
  intro call hcall
  apply decide_eq_false
  rintro rfl
  exact h hcall

theorem stretches_append {first : List Call} (h : .reset ∉ first) (rest : List Call) :
    stretches (first ++ .reset :: rest) = first :: stretches rest := by
  have hcut : stretches (first ++ .reset :: rest) = stretches first ++ stretches rest :=
    List.splitOnP_append_cons first rest rfl
  rw [hcut, stretches_of_not_mem h, List.singleton_append]

theorem lastStretch_of_not_mem {calls : List Call} (h : .reset ∉ calls) : lastStretch calls = calls := by
  simp only [lastStretch, stretches_of_not_mem h, List.getLast_singleton]

theorem lastStretch_append {first : List Call} (h : .reset ∉ first) (rest : List Call) :
    lastStretch (first ++ .reset :: rest) = lastStretch rest := by
  simp only [lastStretch, stretches_append h]
  exact List.getLast_cons (List.splitOnP_ne_nil _ rest)

section
variable {m : Type → Type} [Monad m] (compile : Grammar → m (Option Query))

theorem prepareM_none (s : QuerySlot Query) : s.prepareM compile none = pure s := by
  obtain ⟨state, generation⟩ := s
  cases state <;> rfl

variable [LawfulMonad m]

theorem prepareM_prepareM (s : QuerySlot Query) (g h : Option Grammar) :
    (s.prepareM compile g >>= fun s => s.prepareM compile h) = s.prepareM compile (g.or h) := by
  cases g with
  | none => rw [prepareM_none, pure_bind, Option.none_or]
  | some g =>
      obtain ⟨state, generation⟩ := s
      cases state with
      | ready q | failed => simp only [prepareM, pure_bind]
      | unprepared =>
          simp only [prepareM, bind_assoc, Option.some_or]
          congr 1
          funext result
          cases result <;> simp only [pure_bind]

/-- Calls without a reset are a single one, with the first grammar that they offer. The compiler may have
any effects: it sees no other grammar. -/
theorem runM_stretch (s : QuerySlot Query) {calls : List Call} (h : .reset ∉ calls) :
    s.runM compile calls = s.prepareM compile (firstOffer calls) := by
  obtain ⟨offers, rfl⟩ := exists_offers h
  clear h
  induction offers generalizing s with
  | nil => exact (prepareM_none compile s).symm
  | cons grammar offers ih =>
      rw [List.map_cons, firstOffer_cons, ← prepareM_prepareM, runM, List.foldlM_cons]
      congr 1
      funext s
      exact ih s

theorem runM_append (s : QuerySlot Query) (first rest : List Call) :
    s.runM compile (first ++ .reset :: rest) =
      s.runM compile first >>= fun s => s.reset.runM compile rest := by
  simp only [runM, List.foldlM_append, List.foldlM_cons, performM, pure_bind]

end

variable {compile : Grammar → Option Query} {s : QuerySlot Query}

theorem prepare_prepare (g h : Option Grammar) :
    (s.prepare compile g).prepare compile h = s.prepare compile (g.or h) :=
  prepareM_prepareM (m := Id) _ s g h

theorem run_stretch {calls : List Call} (h : .reset ∉ calls) :
    s.run compile calls = s.prepare compile (firstOffer calls) :=
  runM_stretch (m := Id) _ s h

theorem run_append (first rest : List Call) :
    s.run compile (first ++ .reset :: rest) = (s.run compile first).reset.run compile rest :=
  runM_append (m := Id) _ s first rest

theorem run_cons (call : Call) (calls : List Call) :
    s.run compile (call :: calls) = (s.perform compile call).run compile calls := rfl

theorem state_prepare (compile : Grammar → Option Query) (hs : s.state = .unprepared)
    (grammar : Option Grammar) : (s.prepare compile grammar).state = settledOn compile grammar := by
  obtain ⟨state, generation⟩ := s
  obtain rfl : state = .unprepared := hs
  cases grammar with
  | none => rfl
  | some g => cases hc : compile g <;> simp [prepare, prepareM, settledOn, hc]

theorem generation_prepare (compile : Grammar → Option Query) (hs : s.state = .unprepared)
    (grammar : Option Grammar) : (s.prepare compile grammar).generation =
      if compiles compile grammar then s.generation + 1 else s.generation := by
  obtain ⟨state, generation⟩ := s
  obtain rfl : state = .unprepared := hs
  cases grammar with
  | none => rfl
  | some g => cases hc : compile g <;> simp [prepare, prepareM, compiles, hc]

theorem settledOn_eq_unprepared_iff {grammar : Option Grammar} :
    settledOn compile grammar = .unprepared ↔ grammar = none := by
  cases grammar with
  | none => simp [settledOn]
  | some g => cases hc : compile g <;> simp [settledOn, hc]

theorem state_run (hs : s.state = .unprepared) (calls : List Call) :
    (s.run compile calls).state = settledOn compile (firstOffer (lastStretch calls)) := by
  induction calls using stretch_induction generalizing s with
  | last calls hcalls => rw [run_stretch hcalls, lastStretch_of_not_mem hcalls, state_prepare compile hs]
  | more first rest hfirst ih => rw [run_append, lastStretch_append hfirst, ih rfl]

theorem add_one_ne (g : Generation) : g + 1 ≠ g := by
  intro h
  have hnat := congrArg UInt64.toNat h
  rw [UInt64.toNat_add] at hnat
  have hlt := UInt64.toNat_lt g
  simp only [UInt64.toNat_one] at hnat
  omega

theorem generation_perform (compile : Grammar → Option Query) (s : QuerySlot Query) (call : Call) :
    (s.perform compile call).generation = s.generation + 1 ∧
        (call = .reset ∨ s.state = .unprepared ∧ compiles compile call.grammar? = true) ∨
      (s.perform compile call).generation = s.generation ∧
        ¬ (call = .reset ∨ s.state = .unprepared ∧ compiles compile call.grammar? = true) := by
  cases call with
  | reset => exact Or.inl ⟨rfl, Or.inl rfl⟩
  | prepare grammar =>
      rw [perform_prepare]
      by_cases hs : s.state = .unprepared
      · rw [generation_prepare compile hs]
        by_cases hc : compiles compile grammar = true <;> simp [hs, hc, Call.grammar?]
      · rw [prepare_of_settled hs]
        simp [hs]

theorem generation_perform_ne_iff (call : Call) :
    (s.perform compile call).generation ≠ s.generation ↔
      call = .reset ∨ s.state = .unprepared ∧ compiles compile call.grammar? = true := by
  rcases generation_perform compile s call with ⟨hgen, hcall⟩ | ⟨hgen, hcall⟩
  · exact ⟨fun _ => hcall, fun _ => hgen ▸ add_one_ne s.generation⟩
  · exact ⟨fun hne => absurd hgen hne, fun h => absurd h hcall⟩

theorem generation_run (calls : List Call) :
    (s.run compile calls).generation = s.generation + UInt64.ofNat (s.bumps compile calls) := by
  induction calls generalizing s with
  | nil => exact (UInt64.add_zero _).symm
  | cons call calls ih =>
      rw [run_cons, ih, bumps, UInt64.ofNat_add, ← UInt64.add_assoc]
      congr 1
      rcases generation_perform compile s call with ⟨hgen, -⟩ | ⟨hgen, -⟩
      · rw [if_neg (hgen ▸ add_one_ne s.generation), hgen]
        rfl
      · rw [if_pos hgen, hgen]
        exact (UInt64.add_zero _).symm

theorem bumps_append (first rest : List Call) :
    s.bumps compile (first ++ rest) = s.bumps compile first + (s.run compile first).bumps compile rest := by
  induction first generalizing s with
  | nil => exact (Nat.zero_add _).symm
  | cons call first ih => rw [List.cons_append, bumps, ih, bumps, Nat.add_assoc, run_cons]

theorem bumps_reset (calls : List Call) :
    s.bumps compile (.reset :: calls) = 1 + s.reset.bumps compile calls := by
  rw [bumps, perform_reset, if_neg]
  exact add_one_ne s.generation

theorem bumps_of_settled (hs : s.state ≠ .unprepared) (offers : List (Option Grammar)) :
    s.bumps compile (offers.map .prepare) = 0 := by
  induction offers with
  | nil => rfl
  | cons grammar offers ih =>
      rw [List.map_cons, bumps, perform_prepare, prepare_of_settled hs, if_pos rfl, ih]

theorem bumps_stretch (hs : s.state = .unprepared) {calls : List Call} (h : .reset ∉ calls) :
    s.bumps compile calls = if compiles compile (firstOffer calls) then 1 else 0 := by
  obtain ⟨offers, rfl⟩ := exists_offers h
  clear h
  induction offers with
  | nil => rfl
  | cons grammar offers ih =>
      rw [List.map_cons, bumps, perform_prepare, firstOffer_cons]
      cases grammar with
      | none =>
          have hsame : s.prepare compile none = s := congrArg Id.run (prepareM_none _ s)
          rw [hsame, if_pos rfl, ih, Nat.zero_add, Option.none_or]
      | some g =>
          -- From here on the slot is settled, and nothing that is offered counts.
          have hsettled : (s.prepare compile (some g)).state ≠ .unprepared := by
            rw [state_prepare compile hs, Ne, settledOn_eq_unprepared_iff]
            exact Option.some_ne_none g
          rw [bumps_of_settled hsettled, generation_prepare compile hs, Nat.add_zero, Option.some_or]
          split <;> simp

theorem bumps_eq (hs : s.state = .unprepared) (calls : List Call) :
    s.bumps compile calls =
      calls.count .reset + (stretches calls).countP (compiles compile <| firstOffer ·) := by
  induction calls using stretch_induction generalizing s with
  | last calls hcalls =>
      rw [bumps_stretch hs hcalls, stretches_of_not_mem hcalls, List.count_eq_zero.mpr hcalls,
        List.countP_singleton, Nat.zero_add]
  | more first rest hfirst ih =>
      rw [bumps_append, bumps_stretch hs hfirst, bumps_reset, ih rfl, stretches_append hfirst,
        List.count_append, List.count_eq_zero.mpr hfirst, List.count_cons_self, List.countP_cons]
      omega

theorem bumps_pos (compile : Grammar → Option Query) (s : QuerySlot Query) {calls : List Call}
    (h : .reset ∈ calls) : 0 < s.bumps compile calls := by
  obtain ⟨first, rest, rfl⟩ := List.append_of_mem h
  rw [bumps_append, bumps_reset]
  omega

theorem prepareM_noting (hs : s.state = .unprepared) (grammar : Option Grammar) (log : List Grammar) :
    Id.run ((s.prepareM (noting compile) grammar).run log) =
      (s.prepare compile grammar, log ++ grammar.toList) := by
  obtain ⟨state, generation⟩ := s
  obtain rfl : state = .unprepared := hs
  cases grammar with
  | none => simp [prepare, prepareM]
  | some g => cases hc : compile g <;> simp [prepare, prepareM, noting, hc]

theorem runM_noting (hs : s.state = .unprepared) (calls : List Call) (log : List Grammar) :
    Id.run ((s.runM (noting compile) calls).run log) =
      (s.run compile calls, log ++ (stretches calls).filterMap firstOffer) := by
  induction calls using stretch_induction generalizing s log with
  | last calls hcalls =>
      rw [runM_stretch _ s hcalls, prepareM_noting hs, run_stretch hcalls, stretches_of_not_mem hcalls]
      cases hfirst : firstOffer calls <;> simp [hfirst]
  | more first rest hfirst ih =>
      rw [runM_append, runM_stretch _ s hfirst, StateT.run_bind, Id.run_bind, prepareM_noting hs, ih rfl,
        run_append, run_stretch hfirst, stretches_append hfirst]
      cases hoffer : firstOffer first <;> simp [hoffer]

/-- A query gives way to another one only through a reset, so the generation has moved on meanwhile. -/
theorem generation_run_ne {calls : List Call} {q r : Query} (hq : s.query? = some q)
    (hr : (s.run compile calls).query? = some r) (hne : q ≠ r) (hlt : s.bumps compile calls < UInt64.size) :
    (s.run compile calls).generation ≠ s.generation := by
  have hreset : .reset ∈ calls := by
    -- Without a reset the query that is there would have stayed.
    refine Decidable.byContradiction fun hnot => hne ?_
    rw [run_stretch hnot, prepare_of_ready (by rw [hq]; rfl), hq] at hr
    exact Option.some.inj hr
  have hpos := bumps_pos compile s hreset
  rw [generation_run]
  intro heq
  have hzero : UInt64.ofNat (s.bumps compile calls) = 0 := UInt64.add_eq_left.mp heq
  have hnat := congrArg UInt64.toNat hzero
  rw [UInt64.toNat_ofNat_of_lt' hlt, UInt64.toNat_zero] at hnat
  omega

/-- Of the calls since the last reset the first grammar offered decides on the state, and it is the only
one that is compiled. The generation counts, modulo `2 ^ 64`, the resets and the stretches between them
whose first grammar compiles; so different queries have different generations, unless they are a full
turn of the counter apart. -/
theorem run_by_first_offers (compile : Grammar → Option Query) (calls : List Call) :
    let s : QuerySlot Query := run compile {} calls
    s.state = settledOn compile (firstOffer (lastStretch calls)) ∧
      Id.run ((runM (noting compile) {} calls).run []) = (s, (stretches calls).filterMap firstOffer) ∧
      s.generation.toNat =
        (calls.count .reset + (stretches calls).countP (compiles compile <| firstOffer ·)) % UInt64.size ∧
      (∀ call, (s.perform compile call).generation ≠ s.generation ↔
        call = .reset ∨ firstOffer (lastStretch calls) = none ∧ compiles compile call.grammar? = true) ∧
      ∀ more q r, s.query? = some q → (s.run compile more).query? = some r → q ≠ r →
        s.bumps compile more < UInt64.size → (s.run compile more).generation ≠ s.generation := by
  intro s
  have hstate : s.state = settledOn compile (firstOffer (lastStretch calls)) := state_run rfl calls
  refine ⟨hstate, runM_noting rfl calls [], ?_, ?_, ?_⟩
  · have hgen : s.generation = 0 + UInt64.ofNat _ := generation_run calls
    rw [bumps_eq rfl, UInt64.zero_add] at hgen
    rw [hgen, UInt64.toNat_ofNat']
  · intro call
    rw [generation_perform_ne_iff, hstate, settledOn_eq_unprepared_iff]
  · intro more q r hq hr hne hlt
    exact generation_run_ne hq hr hne hlt

theorem run_by_first_offers_exchanged :
    let compile (g : Grammar) : Option Language := if g.language = .python then none else some g.language
    let offer (l : Language) : Call := .prepare (some { language := l })
    let s := run compile {} [offer .python, .reset, .prepare none, offer .rust, offer .c]
    let t := s.run compile [offer .c, .reset, offer .c]
    s.query? = some .rust ∧ t.query? = some .c ∧ s.bumps compile [offer .c, .reset, offer .c] = 2 ∧
      t.generation ≠ s.generation := by
  intro compile offer s t
  exact ⟨rfl, rfl, rfl,
    (run_by_first_offers compile [offer .python, .reset, .prepare none, offer .rust, offer .c]).2.2.2.2
      [offer .c, .reset, offer .c] .rust .c rfl rfl (by decide) (by decide)⟩

end LineTint.QuerySlot
