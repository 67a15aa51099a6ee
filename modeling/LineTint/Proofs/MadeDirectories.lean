import LineTint.Proofs.FilePlace
import LineTint.Proofs.ParentPath

namespace LineTint.FileSystem

open FilePath (isIdle front)

def next (here : Location) (step : String) : Location :=
  if isIdle step then here else if step = ".." then here.dropLast else here ++ [step]

def route (here : Location) (steps : List String) : Location := steps.foldl next here

def NoFile (fs : FileSystem) (here : Location) : Prop := ∀ content, fs.root.find? here ≠ some (.file content)

/-- On its way a path meets no file and no name that is too long. Directories may be missing. -/
def Passable (fs : FileSystem) : Location → List String → Prop
  | here, [] => fs.NoFile here
  | here, step :: rest => fs.NoFile here ∧ step.utf8ByteSize ≤ maxName ∧ fs.Passable (next here step) rest

def Reaches (fs : FileSystem) (here : Location) (steps : List String) : Prop :=
  steps.foldlM fs.follow here = .ok (route here steps) ∧ ∃ es, fs.root.find? (route here steps) = some (.directory es)

/-- The steps lead to a directory, and no directory is new but those that they lead through. -/
structure Makes (fs fs' : FileSystem) (here : Location) (steps : List String) : Prop where
  reaches : fs'.Reaches here steps
  fresh : ∀ {loc es}, fs'.root.find? loc = some (.directory es) →
    (∃ es', fs.root.find? loc = some (.directory es')) ∨ ∃ before, before <+: steps ∧ loc = route here before

variable {fs fs' : FileSystem} {here : Location} {step : String} {steps rest : List String}

theorem route_concat (here : Location) (steps : List String) (name : String) :
    route here (steps ++ [name]) = next (route here steps) name := List.foldl_concat ..

theorem next_of_name {name : String} (hname : isIdle name = false) (hup : name ≠ "..") :
    next here name = here ++ [name] := by
  rw [next, hname, if_neg Bool.false_ne_true, if_neg hup]

theorem ne_dot_of_not_idle {name : String} (h : isIdle name = false) : name ≠ "." := by
  rintro rfl
  cases h

theorem Passable.noFile (h : fs.Passable here steps) : fs.NoFile here := by
  cases steps with
  | nil => exact h
  | cons step rest => exact h.1

theorem passable_append_iff :
    fs.Passable here (steps ++ rest) ↔ fs.Passable here steps ∧ fs.Passable (route here steps) rest := by
  induction steps generalizing here with
  | nil => exact ⟨fun h => ⟨h.noFile, h⟩, fun h => h.2⟩
  | cons step steps ih =>
      rw [List.cons_append, Passable, Passable, ih, and_assoc, and_assoc]
      rfl

theorem SameFiles.passable_iff (h : SameFiles fs fs') : fs'.Passable here steps ↔ fs.Passable here steps := by
  have hnofile (loc : Location) : fs'.NoFile loc ↔ fs.NoFile loc :=
    forall_congr' fun content => not_congr (h loc content)
  induction steps generalizing here with
  | nil => exact hnofile here
  | cons step steps ih =>
      rw [Passable, Passable, hnofile]
      exact and_congr_right fun _ => and_congr_right fun _ => ih

theorem Leads.eq_next {entries : List (String × FileTree)} {loc : Location} (h : Leads entries here step loc) :
    loc = next here step := by
  cases h with
  | stay hidle => rw [next, if_pos hidle]
  | up => rfl
  | down hidle hup => exact (next_of_name hidle hup).symm

theorem Leads.size_le {entries : List (String × FileTree)} {loc : Location} (h : Leads entries here step loc) :
    step.utf8ByteSize ≤ maxName := by
  cases h with
  | stay hidle =>
      rw [FilePath.isIdle, Bool.or_eq_true, String.isEmpty_iff, decide_eq_true_eq] at hidle
      rcases hidle with rfl | rfl
      · decide
      · decide
  | up => decide
  | down hidle hup hsize => exact hsize

theorem NoFile.directory {t : FileTree} (h : fs.NoFile here) (ht : fs.root.find? here = some t) :
    ∃ es, fs.root.find? here = some (.directory es) := by
  cases t with
  | file content => exact (h content ht).elim
  | directory es => exact ⟨es, ht⟩

theorem exists_dropLast {es : List (String × FileTree)} (h : fs.root.find? here = some (.directory es)) :
    ∃ es', fs.root.find? here.dropLast = some (.directory es') := by
  rcases List.eq_nil_or_concat' here with rfl | ⟨up, name, rfl⟩
  · exact ⟨es, h⟩
  · obtain ⟨es', hup, -⟩ := FileTree.exists_directory h
    rw [List.dropLast_concat]
    exact ⟨es', hup⟩

/-- A step from a directory is taken, unless it is missing. -/
theorem follow_cases {es : List (String × FileTree)} (hhere : fs.root.find? here = some (.directory es))
    (hsize : step.utf8ByteSize ≤ maxName) (hnext : fs.NoFile (next here step)) :
    fs.follow here step = .error .notFound ∨
      fs.follow here step = .ok (next here step) ∧ ∃ es', fs.root.find? (next here step) = some (.directory es') := by
  by_cases hidle : isIdle step = true
  · right
    rw [next, if_pos hidle]
    exact ⟨follow_eq_ok_iff.mpr ⟨es, hhere, .stay hidle⟩, es, hhere⟩
  · by_cases hup : step = ".."
    · subst hup
      exact Or.inr ⟨follow_eq_ok_iff.mpr ⟨es, hhere, .up⟩, exists_dropLast hhere⟩
    · rw [next, if_neg hidle, if_neg hup] at hnext ⊢
      cases hlookup : es.lookup step with
      | none =>
          left
          unfold follow
          simp [hhere, hidle, hup, Nat.not_lt.mpr hsize, hlookup]
      | some t =>
          right
          have hname := (FileTree.find?_name hhere step).trans hlookup
          refine ⟨follow_eq_ok_iff.mpr ⟨es, hhere, .down (Bool.not_eq_true _ ▸ hidle) hup hsize (by rw [hlookup]; rfl)⟩,
            hnext.directory hname⟩

theorem foldlM_cases {es : List (String × FileTree)} (hhere : fs.root.find? here = some (.directory es))
    (h : fs.Passable here steps) :
    steps.foldlM fs.follow here = .error .notFound ∨ fs.Reaches here steps := by
  induction steps generalizing here es with
  | nil => exact Or.inr ⟨rfl, es, hhere⟩
  | cons step steps ih =>
      obtain ⟨-, hsize, hrest⟩ := h
      rcases follow_cases hhere hsize hrest.noFile with hstep | ⟨hstep, es', hnext⟩
      · left
        rw [List.foldlM_cons, hstep]
        rfl
      · rcases ih hnext hrest with hmissing | ⟨hsteps, hroute⟩
        · left
          rw [List.foldlM_cons, hstep]
          exact hmissing
        · exact Or.inr ⟨foldlM_cons_eq_ok_iff.mpr ⟨_, hstep, hsteps⟩, hroute⟩

theorem passable_of_foldlM {loc : Location} (h : steps.foldlM fs.follow here = .ok loc) (hloc : fs.NoFile loc) :
    fs.Passable here steps ∧ loc = route here steps := by
  induction steps generalizing here with
  | nil =>
      obtain rfl := Except.ok.inj h
      exact ⟨hloc, rfl⟩
  | cons step steps ih =>
      obtain ⟨next', hstep, hrest⟩ := foldlM_cons_eq_ok_iff.mp h
      obtain ⟨es, hhere, hleads⟩ := follow_eq_ok_iff.mp hstep
      obtain rfl := hleads.eq_next
      obtain ⟨hpassable, hroute⟩ := ih hrest
      refine ⟨⟨fun content hfile => ?_, hleads.size_le, hpassable⟩, hroute⟩
      cases hhere.symm.trans hfile

theorem Reaches.makes (h : fs.Reaches here steps) : fs.Makes fs here steps := ⟨h, fun {_ es} hes => Or.inl ⟨es, hes⟩⟩

theorem Makes.trans {fs'' : FileSystem} (h : fs.Makes fs' here steps) (h' : fs'.Makes fs'' here (steps ++ rest)) :
    fs.Makes fs'' here (steps ++ rest) := by
  refine ⟨h'.reaches, fun hes => ?_⟩
  rcases h'.fresh hes with ⟨es, hes⟩ | hnew
  · rcases h.fresh hes with hold | ⟨before, hbefore, hloc⟩
    · exact Or.inl hold
    · exact Or.inr ⟨before, hbefore.trans (List.prefix_append steps rest), hloc⟩
  · exact Or.inr hnew

theorem Reaches.isDirectory {p : FilePath} (h : fs.Reaches here p.steps) (hstart : fs.start p = .ok here) :
    fs.isDirectory p = true := by
  obtain ⟨hsteps, es, hroute⟩ := h
  have hget := get_eq_ok_iff.mpr ⟨_, locate_eq_ok_iff.mpr ⟨here, hstart, hsteps⟩, hroute⟩
  rw [FileSystem.isDirectory, hget]
  rfl

theorem directory_of_put_empty {name : String} {es es' : List (String × FileTree)} {loc : Location}
    (hhere : fs.root.find? here = some (.directory es))
    (h : (fs.root.put .empty (here ++ [name])).find? loc = some (.directory es')) :
    loc = here ++ [name] ∨ ∃ es₀, fs.root.find? loc = some (.directory es₀) := by
  by_cases hin : here ++ [name] <+: loc
  · left
    obtain ⟨rest, rfl⟩ := hin
    rw [List.append_assoc, List.singleton_append, FileTree.find?_put .empty name hhere] at h
    cases rest with
    | nil => exact List.append_nil _
    | cons step rest => cases h
  · right
    rcases FileTree.widened_put .empty hhere hin with hsame | ⟨es₁, es₂, hbefore, -, -⟩
    · exact ⟨es', hsame.symm.trans h⟩
    · exact ⟨es₁, hbefore⟩

theorem reaches_concat_iff {name : String} : fs.Reaches here (steps ++ [name]) ↔
    ∃ loc, steps.foldlM fs.follow here = .ok loc ∧ fs.follow loc name = .ok (next (route here steps) name) ∧
      ∃ es, fs.root.find? (next (route here steps) name) = some (.directory es) := by
  rw [Reaches, route_concat, foldlM_concat_eq_ok_iff]
  exact ⟨fun ⟨⟨loc, hsteps, hname⟩, hdir⟩ => ⟨loc, hsteps, hname, hdir⟩,
    fun ⟨loc, hsteps, hname, hdir⟩ => ⟨⟨loc, hsteps, hname⟩, hdir⟩⟩

section

variable {before : List String} {name : String} {es : List (String × FileTree)}
variable (hname : isIdle name = false) (hup : name ≠ "..") (hsize : name.utf8ByteSize ≤ maxName)
variable (hbefore : before.foldlM fs.follow here = .ok (route here before))
variable (hroute : fs.root.find? (route here before) = some (.directory es))

include hname hup hsize hbefore hroute

theorem reaches_of_lookup {t : FileTree} (hlookup : es.lookup name = some t)
    (hnofile : fs.NoFile (next (route here before) name)) : fs.Reaches here (before ++ [name]) := by
  rw [reaches_concat_iff]
  rw [next_of_name hname hup] at hnofile ⊢
  refine ⟨_, hbefore, follow_eq_ok_iff.mpr ⟨es, hroute, .down hname hup hsize (by rw [hlookup]; rfl)⟩, ?_⟩
  exact hnofile.directory (by rw [FileTree.find?_name hroute, hlookup])

theorem makes_put_empty (hlookup : es.lookup name = none) :
    fs.Makes { fs with root := fs.root.put .empty (route here before ++ [name]) } here (before ++ [name]) := by
  have hplace (es' : List (String × FileTree)) : es.lookup name ≠ some (.directory es') := by simp [hlookup]
  refine ⟨?_, fun hes => ?_⟩
  · rw [reaches_concat_iff, next_of_name hname hup]
    exact ⟨_, (grows_put .empty hroute hplace).foldlM hbefore, follow_put .empty hroute hplace hname hup hsize,
      [], FileTree.find?_put .empty name hroute []⟩
  · rcases directory_of_put_empty hroute hes with rfl | hold
    · exact Or.inr ⟨_, List.prefix_refl _, by rw [route_concat, next_of_name hname hup]⟩
    · exact Or.inl hold

end

section

variable {p : FilePath} {before : List String} {name : String}
variable (hstart : fs.start p = .ok here) (hsteps : p.steps = before ++ [name]) (hname : isIdle name = false)

include hstart hsteps hname

theorem lastStep_eq : fs.lastStep p = (before ++ ["."]).foldlM fs.follow here >>= fun loc => .ok (loc, name, false) := by
  have hempty : name.isEmpty = false := (Bool.or_eq_false_iff.mp hname).1
  have hreverse : p.steps.reverse = name :: before.reverse := by
    rw [hsteps, List.reverse_append, List.reverse_singleton, List.singleton_append]
  have hdrop : p.steps.reverse.dropWhile String.isEmpty = name :: before.reverse := by
    rw [hreverse, List.dropWhile_cons, hempty]
    rfl
  have hslash : decide (p.steps.reverse.head? = some "") = false := by
    rw [hreverse, List.head?_cons]
    refine decide_eq_false fun h => ?_
    rw [Option.some.inj h] at hempty
    cases hempty
  unfold lastStep
  rw [hstart]
  simp only [hdrop, hslash, bind, Except.bind]
  rw [List.reverse_reverse]
  rfl

theorem lastStep_of_reaches (h : fs.Reaches here before) : fs.lastStep p = .ok (route here before, name, false) := by
  obtain ⟨hbefore, es, hroute⟩ := h
  rw [lastStep_eq hstart hsteps hname]
  have hdot : fs.follow (route here before) "." = .ok (route here before) :=
    follow_eq_ok_iff.mpr ⟨es, hroute, .stay rfl⟩
  exact bind_eq_ok_iff.mpr ⟨_, foldlM_concat_eq_ok_iff.mpr ⟨_, hbefore, hdot⟩, rfl⟩

theorem makeDirectory_of_missing (h : before.foldlM fs.follow here = .error .notFound) :
    fs.makeDirectory p = .error .notFound := by
  unfold makeDirectory
  rw [lastStep_eq hstart hsteps hname, List.foldlM_append, h]
  rfl

theorem makeDirectory_of_reaches (h : fs.Reaches here before) (hpassable : fs.Passable here (before ++ [name])) :
    (∃ fs', fs.makeDirectory p = .ok fs' ∧ fs.Makes fs' here p.steps) ∨
      fs.makeDirectory p = .error .alreadyExists ∧ fs.Reaches here p.steps := by
  have hlast := lastStep_of_reaches hstart hsteps hname h
  obtain ⟨hbefore, es, hroute⟩ := h
  obtain ⟨-, -, hsize, hnext⟩ := passable_append_iff.mp hpassable
  have hdot := ne_dot_of_not_idle hname
  by_cases hup : name = ".."
  · right
    subst hup
    constructor
    · unfold makeDirectory
      rw [hlast]
      rfl
    · rw [hsteps]
      exact reaches_concat_iff.mpr ⟨_, hbefore, follow_eq_ok_iff.mpr ⟨es, hroute, .up⟩, exists_dropLast hroute⟩
  · have hentry : fs.entry? (route here before) name = .ok (es.lookup name) :=
      entry?_eq_ok_iff.mpr ⟨es, hroute, hsize, rfl⟩
    unfold makeDirectory
    rw [hlast, hsteps]
    simp only [bind, Except.bind, hdot, hup, decide_false, Bool.or_self, Bool.false_eq_true, if_false, hentry]
    cases hlookup : es.lookup name with
    | some t => exact Or.inr ⟨rfl, reaches_of_lookup hname hup hsize hbefore hroute hlookup hnext⟩
    | none => exact Or.inl ⟨_, rfl, makes_put_empty hname hup hsize hbefore hroute hlookup⟩

end

theorem Reaches.append_idle {idle : List String} (h : fs.Reaches here steps)
    (hidle : ∀ step ∈ idle, isIdle step = true) : fs.Reaches here (steps ++ idle) := by
  induction idle generalizing steps with
  | nil => rwa [List.append_nil]
  | cons step idle ih =>
      obtain ⟨hstep, hidle⟩ := List.forall_mem_cons.mp hidle
      obtain ⟨hsteps, es, hroute⟩ := h
      have hnext : next (route here steps) step = route here steps := if_pos hstep
      have hmore : fs.Reaches here (steps ++ [step]) := by
        rw [reaches_concat_iff, hnext]
        exact ⟨_, hsteps, follow_eq_ok_iff.mpr ⟨es, hroute, .stay hstep⟩, es, hroute⟩
      rw [← List.singleton_append, ← List.append_assoc]
      exact ih hmore hidle

theorem Makes.of_front {before : List String} (h : fs.Makes fs' here (front before)) : fs.Makes fs' here before := by
  obtain ⟨idle, hbefore, hidle⟩ := FilePath.exists_front_append before
  rw [hbefore]
  exact h.trans (h.reaches.append_idle hidle).makes

section

variable {p : FilePath} {above : List FilePath}

theorem makeFirst_of_made (h : fs.makeDirectory p = .ok fs') : fs.makeFirst (p :: above) = (fs', .ok ()) := by
  simp only [makeFirst, h]

theorem makeFirst_of_exists (h : fs.makeDirectory p = .error .alreadyExists) (hdir : fs.isDirectory p = true) :
    fs.makeFirst (p :: above) = (fs, .ok ()) := by
  simp only [makeFirst, h, hdir, if_true]

theorem makeFirst_of_missing {fs₁ : FileSystem} (h : fs.makeDirectory p = .error .notFound)
    (habove : fs.makeFirst above = (fs₁, .ok ())) :
    fs.makeFirst (p :: above) = match fs₁.makeDirectory p with
      | .ok fs₂ => (fs₂, .ok ())
      | .error e => (fs₁, if fs₁.isDirectory p then .ok () else .error e) := by
  cases hmake : fs₁.makeDirectory p with
  | ok fs₂ => simp only [makeFirst, h, habove, hmake]
  | error cause => simp only [makeFirst, h, habove, hmake]

end

theorem start_of_prefix {p q : FilePath} {rest : List Char} (hstart : fs.start p = .ok here)
    (hq : q.isEmpty = false) (habsolute : q.isAbsolute = p.isAbsolute) (hpre : p.toList = q.toList ++ rest) :
    fs.start q = .ok here := by
  obtain ⟨hnul, -, hsize, rfl⟩ := start_eq_ok_iff.mp hstart
  rw [hpre, List.mem_append, not_or] at hnul
  have hle : q.utf8ByteSize ≤ p.utf8ByteSize := by
    have hp : p = q ++ String.ofList rest := by
      rw [← String.toList_inj, hpre, String.toList_append, String.toList_ofList]
    rw [hp, String.utf8ByteSize_append]
    exact Nat.le_add_right _ _
  exact start_eq_ok_iff.mpr ⟨hnul.1, hq, Nat.lt_of_le_of_lt hle hsize, by rw [habsolute]⟩

theorem ancestry_of_none {p : FilePath} (h : p.parent? = none) (n : Nat) : ancestry n p = [] := by
  cases n with
  | zero => rfl
  | succ n => rw [ancestry, h]

/-- Above a path with a name is one that has fewer names, or nothing that could be made. -/
theorem exists_parent {p : FilePath} {before : List String} {name : String} (hstart : fs.start p = .ok here)
    (hsteps : p.steps = before ++ [name]) (hname : isIdle name = false) :
    ∃ q, p.parent? = some q ∧ (front before = [] ∧ q.parent? = none ∨
      ∃ before' name', front before = before' ++ [name'] ∧ isIdle name' = false ∧ q.steps = before' ++ [name'] ∧
        fs.start q = .ok here ∧ q.names.length < p.names.length) := by
  by_cases hfront : front before = []
  · refine ⟨_, FilePath.parent?_eq hsteps hname, Or.inl ⟨hfront, ?_⟩⟩
    rw [if_pos hfront]
    split
    next => exact FilePath.parent?_root
    next => exact FilePath.parent?_empty
  · obtain ⟨q, hparent, hq, hempty, habsolute, rest, hpre⟩ := FilePath.exists_above hsteps hname hfront
    obtain ⟨before', name', heq, hname'⟩ := FilePath.exists_concat_of_front hfront
    refine ⟨q, hparent, Or.inr ⟨before', name', heq, hname', hq.trans heq,
      start_of_prefix hstart hempty habsolute hpre, ?_⟩⟩
    have hsub : (front before).Sublist before := (List.rdropWhile_prefix isIdle before).sublist
    have hle := (hsub.filter (!isIdle ·)).length_le
    have hnames : p.names = before.filter (!isIdle ·) ++ [name] := by simp [FilePath.names, hsteps, hname]
    rw [hnames, FilePath.names, hq, List.length_append, List.length_singleton]
    exact Nat.lt_succ_of_le hle

theorem Passable.front {before : List String} (h : fs.Passable here before) : fs.Passable here (front before) := by
  obtain ⟨idle, hbefore, -⟩ := FilePath.exists_front_append before
  rw [hbefore] at h
  exact (passable_append_iff.mp h).1

section

variable {es : List (String × FileTree)} (hhere : fs.root.find? here = some (.directory es))
variable {p : FilePath} {before : List String} {name : String}

include hhere

theorem makes_of_front_eq_nil (h : front before = []) : fs.Makes fs here before := by
  refine .of_front ?_
  rw [h]
  exact Reaches.makes ⟨rfl, es, hhere⟩

/-- Directories are made from the one that is there downwards, until all of them are there. -/
theorem makeFirst_ancestry (n : Nat) (hstart : fs.start p = .ok here) (hsteps : p.steps = before ++ [name])
    (hname : isIdle name = false) (hpassable : fs.Passable here (before ++ [name])) (hn : p.names.length ≤ n) :
    ∃ fs', fs.makeFirst (ancestry n p) = (fs', .ok ()) ∧ fs.Makes fs' here p.steps := by
  -- On the steps that are left above: a path has fewer than the one below it.
  induction n generalizing p before name with
  | zero =>
      have hnames : p.names = before.filter (!isIdle ·) ++ [name] := by simp [FilePath.names, hsteps, hname]
      rw [hnames, List.length_append, List.length_singleton] at hn
      exact (Nat.not_succ_le_zero _ hn).elim
  | succ n ih =>
      have hbefore := (passable_append_iff.mp hpassable).1
      obtain ⟨q, hparent, habove⟩ := exists_parent hstart hsteps hname
      obtain ⟨fs₁, habove, hmakes⟩ :
          ∃ fs₁, fs.makeFirst (ancestry n q) = (fs₁, .ok ()) ∧ fs.Makes fs₁ here before := by
        rcases habove with ⟨hfront, hnone⟩ | ⟨before', name', hfront, hname', hq, hstart', hlt⟩
        · refine ⟨fs, ?_, makes_of_front_eq_nil hhere hfront⟩
          rw [ancestry_of_none hnone]
          rfl
        · obtain ⟨fs₁, habove, hmakes⟩ :=
            ih hstart' hq hname' (hfront ▸ hbefore.front) (Nat.le_of_lt_succ (Nat.lt_of_lt_of_le hlt hn))
          rw [hq, ← hfront] at hmakes
          exact ⟨fs₁, habove, hmakes.of_front⟩
      obtain ⟨hgrows, hfiles⟩ := fs.makeFirst_keeps (ancestry n q)
      rw [habove] at hgrows hfiles
      have hstart₁ : fs₁.start p = .ok here := (hgrows.start p).trans hstart
      rw [ancestry, hparent]
      rcases foldlM_cases hhere hbefore with hmissing | hthere
      · rw [makeFirst_of_missing (makeDirectory_of_missing hstart hsteps hname hmissing) habove]
        rcases makeDirectory_of_reaches hstart₁ hsteps hname hmakes.reaches (hfiles.passable_iff.mpr hpassable) with
          ⟨fs₂, hmade, hmakes₂⟩ | ⟨hexists, hreaches₁⟩
        · rw [hsteps] at hmakes₂ ⊢
          exact ⟨fs₂, by rw [hmade], hmakes.trans hmakes₂⟩
        · refine ⟨fs₁, by rw [hexists]; simp only [hreaches₁.isDirectory hstart₁, if_true], ?_⟩
          rw [hsteps] at hreaches₁ ⊢
          exact hmakes.trans hreaches₁.makes
      · rcases makeDirectory_of_reaches hstart hsteps hname hthere hpassable with
          ⟨fs₂, hmade, hmakes₂⟩ | ⟨hexists, hreaches⟩
        · exact ⟨fs₂, makeFirst_of_made hmade, hmakes₂⟩
        · exact ⟨fs, makeFirst_of_exists hexists (hreaches.isDirectory hstart), hreaches.makes⟩

theorem makeDirectories_parent (hstart : fs.start p = .ok here) (hsteps : p.steps = before ++ [name])
    (hname : isIdle name = false) (hbefore : fs.Passable here before) :
    ∃ q fs', p.parent? = some q ∧ fs.makeDirectories q = (fs', .ok ()) ∧ fs.Makes fs' here before := by
  obtain ⟨q, hparent, habove⟩ := exists_parent hstart hsteps hname
  rcases habove with ⟨hfront, hnone⟩ | ⟨before', name', hfront, hname', hq, hstart', -⟩
  · refine ⟨q, fs, hparent, ?_, makes_of_front_eq_nil hhere hfront⟩
    rw [makeDirectories, ancestry_of_none hnone]
    rfl
  · obtain ⟨fs', hmade, hmakes⟩ :=
      makeFirst_ancestry hhere _ hstart' hq hname' (hfront ▸ hbefore.front) (Nat.le_succ q.names.length)
    rw [hq, ← hfront] at hmakes
    exact ⟨q, fs', hparent, hmade, hmakes.of_front⟩

end

theorem foldlM_directory {loc : Location} (h : steps.foldlM fs.follow here = .ok loc)
    (hloc : ∃ es, fs.root.find? loc = some (.directory es)) : ∃ es, fs.root.find? here = some (.directory es) := by
  cases steps with
  | nil =>
      obtain rfl := Except.ok.inj h
      exact hloc
  | cons step steps =>
      obtain ⟨next, hstep, -⟩ := foldlM_cons_eq_ok_iff.mp h
      obtain ⟨es, hhere, -⟩ := follow_eq_ok_iff.mp hstep
      exact ⟨es, hhere⟩

theorem Reaches.directory {before : List String} (h : fs.Reaches here steps) (hpre : before <+: steps) :
    ∃ es, fs.root.find? (route here before) = some (.directory es) := by
  induction before generalizing here steps with
  | nil => exact foldlM_directory h.1 h.2
  | cons step before ih =>
      obtain ⟨rest, rfl⟩ := hpre
      obtain ⟨hsteps, hdir⟩ := h
      obtain ⟨loc, hstep, hrest⟩ := foldlM_cons_eq_ok_iff.mp hsteps
      obtain ⟨es, -, hleads⟩ := follow_eq_ok_iff.mp hstep
      obtain rfl := hleads.eq_next
      exact ih ⟨hrest, hdir⟩ ⟨rest, rfl⟩

/-- A path leads through directories, some of which may be missing, to a name that a file has or can be given. -/
structure Writable (fs : FileSystem) (p : FilePath) (here : Location) (before : List String) (name : String) : Prop where
  start : fs.start p = .ok here
  directory : ∃ es, fs.root.find? here = some (.directory es)
  steps : p.steps = before ++ [name]
  passable : fs.Passable here before
  idle : isIdle name = false
  up : name ≠ ".."
  size : name.utf8ByteSize ≤ maxName
  place : ∀ es, fs.root.find? (route here before ++ [name]) ≠ some (.directory es)
  way : ∀ steps, steps <+: before → route here steps ≠ route here before ++ [name]

theorem Writable.exists_write {p : FilePath} {before : List String} {name : String}
    (h : fs.Writable p here before name) (content : List UInt8) :
    ∃ q fs₁ fs', p.parent? = some q ∧ fs.makeDirectories q = (fs₁, .ok ()) ∧ fs₁.write p content = .ok fs' := by
  obtain ⟨es, hhere⟩ := h.directory
  obtain ⟨q, fs₁, hparent, hmade, hmakes⟩ := makeDirectories_parent hhere h.start h.steps h.idle h.passable
  have hgrows := (fs.makeDirectories_keeps q).1
  rw [hmade] at hgrows
  have hlast := lastStep_of_reaches ((hgrows.start p).trans h.start) h.steps h.idle hmakes.reaches
  obtain ⟨-, es', hroute⟩ := hmakes.reaches
  have hentry : fs₁.entry? (route here before) name = .ok (es'.lookup name) :=
    entry?_eq_ok_iff.mpr ⟨es', hroute, h.size, rfl⟩
  have hplace (es : List (String × FileTree)) : es'.lookup name ≠ some (.directory es) := by
    intro hes
    rw [← FileTree.find?_name hroute] at hes
    rcases hmakes.fresh hes with ⟨es₀, hold⟩ | ⟨steps, hsteps, hloc⟩
    · exact h.place es₀ hold
    · exact h.way steps hsteps hloc.symm
  have hdot := ne_dot_of_not_idle h.idle
  refine ⟨q, fs₁, { fs₁ with root := fs₁.root.put (.file content) (route here before ++ [name]) }, hparent, hmade, ?_⟩
  unfold write
  rw [hlast]
  simp only [bind, Except.bind, hdot, h.up, decide_false, Bool.or_self, Bool.false_eq_true, if_false, hentry]
  rfl

section

variable {p : FilePath} (hstart : fs.start p = .ok here) (hhere : ∀ es, fs.root.find? here ≠ some (.directory es))

include hstart hhere

theorem makeDirectory_of_astray {before : List String} {name : String} (hsteps : p.steps = before ++ [name])
    (hname : isIdle name = false) : fs.makeDirectory p = .error .notDirectory := by
  have hfollow (step : String) : fs.follow here step = .error .notDirectory := by
    unfold follow
    split
    next es hes => exact (hhere es hes).elim
    next => rfl
  obtain ⟨step, rest, hrest⟩ := List.exists_cons_of_ne_nil (List.append_ne_nil_of_right_ne_nil before (by simp : ["."] ≠ []))
  unfold makeDirectory
  rw [lastStep_eq hstart hsteps hname, hrest, List.foldlM_cons, hfollow]
  rfl

theorem isDirectory_of_astray : fs.isDirectory p = false := by
  rw [← Bool.not_eq_true]
  intro hdir
  unfold isDirectory at hdir
  split at hdir
  next t hget =>
    obtain ⟨loc, hloc, hfind⟩ := get_eq_ok_iff.mp hget
    obtain ⟨first, hfirst, hsteps⟩ := locate_eq_ok_iff.mp hloc
    obtain rfl := Except.ok.inj (hfirst.symm.trans hstart)
    cases t with
    | file content => cases hdir
    | directory es =>
        obtain ⟨es', hes'⟩ := foldlM_directory hsteps ⟨es, hfind⟩
        exact hhere es' hes'
  next => cases hdir

end

theorem writable_of_write {p : FilePath} {content : List UInt8} {fs₁ : FileSystem}
    (hmake : (p.parent?.map fs.makeDirectories).getD (fs, .ok ()) = (fs₁, .ok ()))
    (hwrite : fs₁.write p content = .ok fs') : ∃ here before name, fs.Writable p here before name := by
  have hkeeps : Grows fs fs₁ ∧ SameFiles fs fs₁ := by
    cases hparent : p.parent? with
    | none =>
        rw [hparent] at hmake
        obtain rfl := congrArg Prod.fst hmake
        exact ⟨.refl fs, fun _ _ => Iff.rfl⟩
    | some q =>
        rw [hparent] at hmake
        obtain rfl := congrArg Prod.fst hmake
        exact fs.makeDirectories_keeps q
  obtain ⟨hgrows, hfiles⟩ := hkeeps
  obtain ⟨loc, name, hleads, -⟩ := write_eq_ok hwrite
  obtain ⟨here, before, hstart, hsteps, hbefore⟩ := hleads.steps
  obtain ⟨es, hloc, hplace⟩ := hleads.place
  have hnofile : fs₁.NoFile loc := fun content hfile => by cases hloc.symm.trans hfile
  obtain ⟨hpassable, rfl⟩ := passable_of_foldlM hbefore hnofile
  have hreaches : fs₁.Reaches here before := ⟨hbefore, es, hloc⟩
  have hstart₀ : fs.start p = .ok here := (hgrows.start p).symm.trans hstart
  have hpassable₀ := hfiles.passable_iff.mp hpassable
  have hplace₁ (es : List (String × FileTree)) : fs₁.root.find? (route here before ++ [name]) ≠ some (.directory es) := by
    rw [FileTree.find?_name hloc]
    exact hplace es
  refine ⟨here, before, name, hstart₀, ?_, hsteps, hpassable₀, hleads.idle, hleads.up, hleads.size, ?_, ?_⟩
  · by_contra hastray
    push Not at hastray
    obtain ⟨q, hparent, habove⟩ := exists_parent hstart₀ hsteps hleads.idle
    rw [hparent, Option.map_some, Option.getD_some] at hmake
    rcases habove with ⟨-, hnone⟩ | ⟨before', name', -, hname', hq, hstart', -⟩
    · rw [makeDirectories, ancestry_of_none hnone] at hmake
      obtain rfl := congrArg Prod.fst hmake
      obtain ⟨es', hhere⟩ := hreaches.directory (List.nil_prefix)
      exact hastray es' hhere
    · obtain ⟨up, hup, -⟩ := exists_parent hstart' hq hname'
      have hmake' := makeDirectory_of_astray hstart' hastray hq hname'
      have hno := isDirectory_of_astray hstart' hastray
      rw [makeDirectories, ancestry, hup] at hmake
      simp [makeFirst, hmake', hno] at hmake
  · intro es' hes'
    obtain ⟨es'', hes'', -⟩ := hgrows.directory hes'
    exact hplace₁ es'' hes''
  · intro steps hsteps' hroute
    obtain ⟨es', hes'⟩ := hreaches.directory hsteps'
    rw [hroute] at hes'
    exact hplace₁ es' hes'

end LineTint.FileSystem
