import LineTint.Locations

namespace LineTint

namespace FilePath

theorem pieces_ne_nil (cs : List Char) : pieces cs ≠ [] := by
  cases cs with
  | nil => simp [pieces]
  | cons c cs =>
      unfold pieces
      split
      next => split <;> simp
      next => simp

theorem pieces_cons (c : Char) (cs : List Char) :
    ∃ piece more, pieces cs = piece :: more ∧
      pieces (c :: cs) = if c = '/' then [] :: piece :: more else (c :: piece) :: more := by
  obtain ⟨piece, more, hcs⟩ := List.exists_cons_of_ne_nil (pieces_ne_nil cs)
  refine ⟨piece, more, hcs, ?_⟩
  rw [pieces, hcs]

theorem pieces_append (cs ds : List Char) : pieces (cs ++ '/' :: ds) = pieces cs ++ pieces ds := by
  induction cs with
  | nil =>
      obtain ⟨piece, more, hds, heq⟩ := pieces_cons '/' ds
      rw [List.nil_append, heq, hds]
      rfl
  | cons c cs ih =>
      obtain ⟨piece, more, hcs, heq⟩ := pieces_cons c cs
      obtain ⟨piece', more', hall, heq'⟩ := pieces_cons c (cs ++ '/' :: ds)
      rw [ih, hcs, List.cons_append] at hall
      obtain ⟨rfl, rfl⟩ := List.cons.inj hall
      rw [List.cons_append, heq', heq]
      split <;> rfl

theorem pieces_of_not_mem {cs : List Char} (h : '/' ∉ cs) : pieces cs = [cs] := by
  induction cs with
  | nil => rfl
  | cons c cs ih =>
      obtain ⟨hc, hcs⟩ := List.ne_and_not_mem_of_not_mem_cons h
      obtain ⟨piece, more, heq, heq'⟩ := pieces_cons c cs
      rw [ih hcs] at heq
      obtain ⟨rfl, rfl⟩ := List.cons.inj heq
      rw [heq', if_neg hc.symm]

theorem steps_of_not_mem {name : String} (h : '/' ∉ name.toList) : steps name = [name] := by
  rw [steps, pieces_of_not_mem h, List.map_singleton, String.ofList_toList]

/-- A path to which further steps can be added: it names something, and ends in a name. -/
def IsOpen (p : FilePath) : Prop := p.toList ≠ [] ∧ p.toList.getLast? ≠ some '/'

theorem isAbsolute_iff {p : FilePath} : p.isAbsolute = true ↔ p.toList.head? = some '/' := by
  rw [isAbsolute, String.startsWith_string_iff]
  change ['/'] <+: p.toList ↔ _
  constructor
  · rintro ⟨rest, h⟩
    rw [← h]
    rfl
  · intro h
    obtain ⟨rest, h⟩ := List.head?_eq_some_iff.mp h
    exact ⟨rest, h.symm⟩

theorem endsWith_iff {p ending : String} : p.endsWith ending = true ↔ ∃ front, p.toList = front ++ ending.toList := by
  rw [String.endsWith_eq_endsWith_toSlice, String.Slice.endsWith_string_iff, String.copy_toSlice]
  exact exists_congr fun front => eq_comm

theorem endsWith_slash_iff {p : FilePath} : p.endsWith "/" = true ↔ p.toList.getLast? = some '/' := by
  rw [endsWith_iff, List.getLast?_eq_some_iff]
  rfl

theorem exists_join_eq (p q : FilePath) : ∃ front, join p q = front ++ q := by
  unfold join
  split
  · exact ⟨"", String.empty_append.symm⟩
  · split
    · exact ⟨p, rfl⟩
    · exact ⟨p ++ "/", rfl⟩

theorem IsOpen.join {q : FilePath} (hq : q.IsOpen) (p : FilePath) : (join p q).IsOpen := by
  obtain ⟨front, h⟩ := exists_join_eq p q
  obtain ⟨c, hc⟩ := Option.ne_none_iff_exists'.mp (mt List.getLast?_eq_none_iff.mp hq.1)
  rw [h, IsOpen, String.toList_append, List.getLast?_append, hc, Option.some_or, ← hc]
  exact ⟨List.append_ne_nil_of_right_ne_nil _ hq.1, hq.2⟩

theorem join_eq {p q : FilePath} (hp : p.IsOpen) (hq : q.toList.head? ≠ some '/') : join p q = p ++ "/" ++ q := by
  have habsolute : q.isAbsolute = false := by
    rw [← Bool.not_eq_true, isAbsolute_iff]
    exact hq
  have hempty : p.isEmpty = false := by
    rw [← Bool.not_eq_true, String.isEmpty_iff, ← String.toList_eq_nil_iff]
    exact hp.1
  have hslash : p.endsWith "/" = false := by
    rw [← Bool.not_eq_true, endsWith_slash_iff]
    exact hp.2
  simp only [FilePath.join, habsolute, hempty, hslash, Bool.or_self, Bool.false_eq_true, if_false]

theorem steps_append (p q : FilePath) : steps (p ++ "/" ++ q) = steps p ++ steps q := by
  rw [steps, steps, steps, String.toList_append, String.toList_append, List.append_assoc, ← List.map_append,
    ← pieces_append]
  rfl

end FilePath

namespace Home

variable (h : Home)

theorem directory_isOpen : h.directory.IsOpen :=
  FilePath.IsOpen.join ⟨by decide, by decide⟩ _

theorem themes_isOpen : h.themes.IsOpen :=
  FilePath.IsOpen.join ⟨by decide, by decide⟩ _

theorem config_eq : h.config = h.directory ++ "/" ++ "highlight.yaml" :=
  FilePath.join_eq h.directory_isOpen (by decide)

theorem join_themes {name : String} (hname : '/' ∉ name.toList) :
    FilePath.join h.themes name = h.themes ++ "/" ++ name := by
  refine FilePath.join_eq h.themes_isOpen (fun hhead => hname ?_)
  exact List.mem_of_head? hhead

def atRoot : Home where
  home := "/"

end Home
end LineTint
