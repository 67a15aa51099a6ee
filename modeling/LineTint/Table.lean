namespace LineTint

structure Table (κ α : Type) where
  entries : List (κ × α) := []
  nodup : (entries.map (·.1)).Nodup := by exact List.nodup_nil
deriving Repr

namespace Table

variable {κ α β : Type}

def empty : Table κ α := {}

instance : Inhabited (Table κ α) := ⟨empty⟩

def size (t : Table κ α) : Nat := t.entries.length

def isEmpty (t : Table κ α) : Bool := t.entries.isEmpty

def keys (t : Table κ α) : List κ := t.entries.map (·.1)

def filter (p : κ → α → Bool) (t : Table κ α) : Table κ α where
  entries := t.entries.filter fun (k, a) => p k a
  nodup := t.nodup.sublist (List.filter_sublist.map _)

variable [DecidableEq κ]

def get? (t : Table κ α) (k : κ) : Option α := (t.entries.find? (·.1 = k)).map (·.2)

def erase (t : Table κ α) (k : κ) : Table κ α := t.filter fun l _ => l ≠ k

theorem not_mem_keys_erase (t : Table κ α) (k : κ) : k ∉ (t.erase k).keys := by
  simp [erase, filter, keys]

def insert (t : Table κ α) (k : κ) (a : α) : Table κ α where
  entries := (k, a) :: (t.erase k).entries
  nodup := List.nodup_cons.2 ⟨t.not_mem_keys_erase k, (t.erase k).nodup⟩

/-- Of several entries for a key the last one counts. -/
def ofList (l : List (κ × α)) : Table κ α := l.foldl (fun t (k, a) => t.insert k a) empty

theorem get?_empty (k : κ) : (empty : Table κ α).get? k = none := rfl

theorem get?_insert (t : Table κ α) (k l : κ) (a : α) :
    (t.insert k a).get? l = if k = l then some a else t.get? l := by
  by_cases h : k = l
  · simp [get?, insert, h]
  · simp only [get?, insert, erase, filter, List.find?_cons, h, decide_false, List.find?_filter]
    congr 2
    funext e
    by_cases he : e.1 = l
    · simp [he, Ne.symm h]
    · simp [he]

theorem get?_erase (t : Table κ α) (k l : κ) :
    (t.erase k).get? l = if k = l then none else t.get? l := by
  simp only [get?, erase, filter, List.find?_filter]
  by_cases h : k = l
  · subst h
    simp only [if_true, Option.map_eq_none_iff, List.find?_eq_none]
    simp
  · simp only [h, if_false]
    congr 2
    funext e
    by_cases he : e.1 = l
    · simp [he, Ne.symm h]
    · simp [he]

theorem mem_of_get? {t : Table κ α} {k : κ} {a : α} (h : t.get? k = some a) :
    (k, a) ∈ t.entries := by
  obtain ⟨e, he, rfl⟩ := Option.map_eq_some_iff.1 h
  have hk : e.1 = k := by simpa using List.find?_some he
  exact hk ▸ List.mem_of_find?_eq_some he

theorem get?_eq_some_iff {t : Table κ α} {k : κ} {a : α} :
    t.get? k = some a ↔ (k, a) ∈ t.entries := by
  refine ⟨mem_of_get?, fun h => ?_⟩
  obtain ⟨entries, nodup⟩ := t
  simp only at h
  induction entries with
  | nil => simp at h
  | cons e entries ih =>
    simp only [List.map_cons, List.nodup_cons] at nodup
    by_cases he : e.1 = k
    · rcases List.mem_cons.1 h with rfl | h
      · simp [get?]
      · exact absurd (List.mem_map.2 ⟨_, h, he.symm⟩) nodup.1
    · rcases List.mem_cons.1 h with rfl | h
      · simp at he
      · simpa [get?, he] using ih nodup.2 h

def mapEntries {ε : Type} (f : κ → α → Except ε β) :
    (l : List (κ × α)) → Except ε { r : List (κ × β) // r.map (·.1) = l.map (·.1) }
  | [] => .ok ⟨[], rfl⟩
  | (k, a) :: l =>
    match f k a, mapEntries f l with
    | .ok b, .ok ⟨r, h⟩ => .ok ⟨(k, b) :: r, by simp [h]⟩
    | .error e, _ => .error e
    | _, .error e => .error e

def mapM {ε : Type} (f : κ → α → Except ε β) (t : Table κ α) : Except ε (Table κ β) :=
  match mapEntries f t.entries with
  | .ok ⟨r, h⟩ => .ok { entries := r, nodup := h ▸ t.nodup }
  | .error e => .error e

section mapM

variable {ε : Type} {f : κ → α → Except ε β} {t : Table κ α} {u : Table κ β} {cause : ε}

omit [DecidableEq κ] in
theorem exists_of_mapEntries_ok {l : List (κ × α)} {r} (h : mapEntries f l = .ok r) :
    ∀ x ∈ l, ∃ b, f x.1 x.2 = .ok b ∧ (x.1, b) ∈ r.1 := by
  induction l with
  | nil => simp
  | cons x l ih =>
    obtain ⟨k, a⟩ := x
    unfold mapEntries at h
    split at h
    next b rest hrest hb hl =>
      obtain rfl := Except.ok.inj h
      intro y hy
      rcases List.mem_cons.1 hy with rfl | hy
      · exact ⟨b, hb, List.mem_cons_self⟩
      · obtain ⟨c, hc, hmem⟩ := ih hl y hy
        exact ⟨c, hc, List.mem_cons_of_mem _ hmem⟩
    next => cases h
    next => cases h

omit [DecidableEq κ] in
theorem exists_of_mapEntries_error {l : List (κ × α)} (h : mapEntries f l = .error cause) :
    ∃ x ∈ l, f x.1 x.2 = .error cause := by
  induction l with
  | nil => cases h
  | cons x l ih =>
    obtain ⟨k, a⟩ := x
    unfold mapEntries at h
    split at h
    next => cases h
    next hb => cases h; exact ⟨(k, a), List.mem_cons_self, hb⟩
    next hl _ =>
      cases h
      obtain ⟨y, hy, hcause⟩ := ih hl
      exact ⟨y, List.mem_cons_of_mem _ hy, hcause⟩

omit [DecidableEq κ] in
theorem keys_mapM (h : t.mapM f = .ok u) : u.keys = t.keys := by
  unfold mapM at h
  split at h
  next r hkeys _ => obtain rfl := Except.ok.inj h; exact hkeys
  next => cases h

theorem get?_mapM (h : t.mapM f = .ok u) {k : κ} {a : α} (hk : t.get? k = some a) :
    ∃ b, f k a = .ok b ∧ u.get? k = some b := by
  unfold mapM at h
  split at h
  next r hkeys hr =>
    obtain rfl := Except.ok.inj h
    obtain ⟨b, hb, hmem⟩ := exists_of_mapEntries_ok hr (k, a) (mem_of_get? hk)
    exact ⟨b, hb, get?_eq_some_iff.2 hmem⟩
  next => cases h

theorem exists_of_mapM_error (h : t.mapM f = .error cause) :
    ∃ k a, t.get? k = some a ∧ f k a = .error cause := by
  unfold mapM at h
  split at h
  next => cases h
  next hl =>
    cases h
    obtain ⟨⟨k, a⟩, hmem, hcause⟩ := exists_of_mapEntries_error hl
    exact ⟨k, a, get?_eq_some_iff.2 hmem, hcause⟩

end mapM

end Table
end LineTint
