import LineTint.Proofs.PathSteps
import LineTint.Proofs.Success
import Mathlib.Data.List.Infix

namespace LineTint

namespace FileTree

theorem lookup_cons (n m : String) (t : FileTree) (entries : List (String × FileTree)) :
    List.lookup n ((m, t) :: entries) = if n = m then some t else entries.lookup n := by
  by_cases h : n = m
  · rw [h, List.lookup_cons_self, if_pos rfl]
  · have hne : (n == m) = false := beq_false_of_ne h
    rw [List.lookup_cons, hne, if_neg h]

theorem lookup_replace (name : String) (t : FileTree) (entries : List (String × FileTree)) (n : String) :
    (replace name t entries).lookup n = if n = name then some t else entries.lookup n := by
  induction entries with
  | nil => rw [replace, lookup_cons]
  | cons e entries ih =>
      obtain ⟨m, u⟩ := e
      by_cases hm : m = name
      · subst hm
        simp only [replace, if_true, lookup_cons]
        split <;> rfl
      · simp only [replace, if_neg hm, lookup_cons, ih]
        by_cases h : n = m
        · subst h
          simp [hm]
        · simp [h]

theorem isSome_lookup_replace (name : String) (t : FileTree) {entries : List (String × FileTree)} {n : String}
    (h : (entries.lookup n).isSome) : ((replace name t entries).lookup n).isSome := by
  rw [lookup_replace]
  split
  next => rfl
  next => exact h

theorem find?_append (t : FileTree) (here rest : Location) :
    t.find? (here ++ rest) = (t.find? here).bind (·.find? rest) := by
  induction here generalizing t with
  | nil => rfl
  | cons name here ih =>
      cases t with
      | file content => rfl
      | directory entries =>
          rw [List.cons_append, find?, find?, Option.bind_assoc]
          exact congrArg _ (funext ih)

variable {t : FileTree} {here : Location} {entries : List (String × FileTree)} {name : String}

theorem find?_name (h : t.find? here = some (.directory entries)) (name : String) :
    t.find? (here ++ [name]) = entries.lookup name := by
  rw [find?_append, h]
  exact Option.bind_fun_some _

theorem exists_of_find?_cons {rest : Location} {u : FileTree} (h : t.find? (name :: rest) = some u) :
    ∃ entries t', t = .directory entries ∧ entries.lookup name = some t' ∧ t'.find? rest = some u := by
  cases t with
  | file content => cases h
  | directory entries =>
      obtain ⟨t', hlookup, hfind⟩ := Option.bind_eq_some_iff.mp h
      exact ⟨entries, t', rfl, hlookup, hfind⟩

theorem exists_directory {rest : Location} {u : FileTree} (h : t.find? (here ++ name :: rest) = some u) :
    ∃ es, t.find? here = some (.directory es) ∧ (es.lookup name).isSome := by
  rw [find?_append] at h
  obtain ⟨t', hhere, hrest⟩ := Option.bind_eq_some_iff.mp h
  obtain ⟨es, t'', rfl, hlookup, -⟩ := exists_of_find?_cons hrest
  exact ⟨es, hhere, by rw [hlookup]; rfl⟩

theorem find?_put (new : FileTree) (name : String) (h : t.find? here = some (.directory entries)) (rest : Location) :
    (t.put new (here ++ [name])).find? (here ++ name :: rest) = new.find? rest := by
  induction here generalizing t with
  | nil =>
      obtain rfl := Option.some.inj h
      simp [put, find?, lookup_replace]
  | cons step here ih =>
      obtain ⟨es, t', rfl, hlookup, hfind⟩ := exists_of_find?_cons h
      simpa [put, find?, lookup_replace, hlookup] using ih hfind

/-- A directory may have got more names; all else is the same. -/
def Widened (before after : Option FileTree) : Prop :=
  after = before ∨ ∃ es es', before = some (.directory es) ∧ after = some (.directory es') ∧
    ∀ n, (es.lookup n).isSome → (es'.lookup n).isSome

theorem widened_put (new : FileTree) (h : t.find? here = some (.directory entries)) {loc : Location}
    (hloc : ¬ here ++ [name] <+: loc) : Widened (t.find? loc) ((t.put new (here ++ [name])).find? loc) := by
  induction here generalizing t loc with
  | nil =>
      obtain rfl := Option.some.inj h
      cases loc with
      | nil => exact Or.inr ⟨entries, _, rfl, rfl, fun _ => isSome_lookup_replace _ _⟩
      | cons step loc =>
          have hne : step ≠ name := by
            rintro rfl
            exact hloc (by simp)
          left
          simp [put, find?, lookup_replace, hne]
  | cons step here ih =>
      obtain ⟨es, t', rfl, hlookup, hfind⟩ := exists_of_find?_cons h
      cases loc with
      | nil => exact Or.inr ⟨es, _, rfl, rfl, fun _ => isSome_lookup_replace _ _⟩
      | cons n loc =>
          by_cases hn : n = step
          · subst hn
            have hrest : ¬ here ++ [name] <+: loc := by
              intro hpre
              exact hloc (List.cons_prefix_cons.mpr ⟨rfl, hpre⟩)
            simpa [put, find?, lookup_replace, hlookup] using ih hfind hrest
          · left
            simp [put, find?, lookup_replace, hn]

end FileTree

namespace FileSystem

variable {fs fs' : FileSystem} {p : FilePath} {here loc : Location}

inductive Leads (entries : List (String × FileTree)) (here : Location) : String → Location → Prop
  | stay {step : String} (hidle : FilePath.isIdle step = true) : Leads entries here step here
  | up : Leads entries here ".." here.dropLast
  | down {step : String} (hidle : FilePath.isIdle step = false) (hup : step ≠ "..")
      (hsize : step.utf8ByteSize ≤ maxName) (hname : (entries.lookup step).isSome) :
      Leads entries here step (here ++ [step])

theorem Leads.eq_of_idle {entries : List (String × FileTree)} {step : String} (h : Leads entries here step loc)
    (hidle : FilePath.isIdle step = true) : loc = here := by
  cases h with
  | stay => rfl
  | up => cases hidle
  | down hidle' => cases hidle'.symm.trans hidle

theorem follow_eq_ok_iff {step : String} : fs.follow here step = .ok loc ↔
    ∃ entries, fs.root.find? here = some (.directory entries) ∧ Leads entries here step loc := by
  constructor
  · intro h
    unfold follow at h
    split at h
    next entries hfind =>
      refine ⟨entries, hfind, ?_⟩
      split_ifs at h with hidle hup hsize hname
      · obtain rfl := Except.ok.inj h
        exact .stay hidle
      · obtain rfl := Except.ok.inj h
        subst hup
        exact .up
      · obtain rfl := Except.ok.inj h
        exact .down (Bool.not_eq_true _ ▸ hidle) hup (Nat.le_of_not_lt hsize) hname
    next => cases h
  · rintro ⟨entries, hfind, hleads⟩
    unfold follow
    rw [hfind]
    cases hleads with
    | stay hidle => simp [hidle]
    | up => rfl
    | down hidle hup hsize hname => simp [hidle, hup, Nat.not_lt.mpr hsize, hname]

theorem start_eq_ok_iff : fs.start p = .ok here ↔ '\x00' ∉ p.toList ∧ p.isEmpty = false ∧
    p.utf8ByteSize < maxPath ∧ here = if p.isAbsolute then [] else fs.workingDirectory := by
  unfold start
  split
  next hnul => exact ⟨nofun, fun h => absurd (List.contains_iff_mem.mp hnul) h.1⟩
  next hnul =>
    have hnul : '\x00' ∉ p.toList := fun h => hnul (List.contains_iff_mem.mpr h)
    split
    next hempty => exact ⟨nofun, fun h => absurd (hempty.symm.trans h.2.1) (by decide)⟩
    next hempty =>
      split
      next hsize => exact ⟨nofun, fun h => absurd h.2.2.1 (Nat.not_lt.mpr hsize)⟩
      next hsize =>
        constructor
        · intro h
          exact ⟨hnul, Bool.not_eq_true _ ▸ hempty, Nat.lt_of_not_le hsize, (Except.ok.inj h).symm⟩
        · rintro ⟨-, -, -, rfl⟩
          rfl

theorem locate_eq_ok_iff : fs.locate p = .ok loc ↔
    ∃ here, fs.start p = .ok here ∧ p.steps.foldlM fs.follow here = .ok loc := bind_eq_ok_iff

theorem get_eq_ok_iff {t : FileTree} :
    fs.get p = .ok t ↔ ∃ loc, fs.locate p = .ok loc ∧ fs.root.find? loc = some t := by
  refine bind_eq_ok_iff.trans (exists_congr fun loc => and_congr_right fun _ => ?_)
  cases fs.root.find? loc with
  | none => simp
  | some u => simp [pure, Except.pure]

theorem read_eq_ok_iff {content : List UInt8} :
    fs.read p = .ok content ↔ ∃ loc, fs.locate p = .ok loc ∧ fs.root.find? loc = some (.file content) := by
  rw [← get_eq_ok_iff]
  refine bind_eq_ok_iff.trans ⟨?_, fun h => ⟨_, h, rfl⟩⟩
  rintro ⟨t, ht, hcontent⟩
  cases t with
  | file content' => rwa [← Except.ok.inj hcontent]
  | directory entries => cases hcontent

/-- Every directory is still there with all its names; it may have got more. -/
structure Grows (fs fs' : FileSystem) : Prop where
  working : fs'.workingDirectory = fs.workingDirectory
  directory : ∀ {loc es}, fs.root.find? loc = some (.directory es) →
    ∃ es', fs'.root.find? loc = some (.directory es') ∧ ∀ n, (es.lookup n).isSome → (es'.lookup n).isSome

/-- Each file is still there as it was, and no file is new. -/
def SameFiles (fs fs' : FileSystem) : Prop :=
  ∀ loc content, fs'.root.find? loc = some (.file content) ↔ fs.root.find? loc = some (.file content)

theorem Grows.refl (fs : FileSystem) : Grows fs fs := ⟨rfl, fun h => ⟨_, h, fun _ hn => hn⟩⟩

theorem Grows.trans {fs'' : FileSystem} (h : Grows fs fs') (h' : Grows fs' fs'') : Grows fs fs'' := by
  refine ⟨h'.working.trans h.working, fun hfind => ?_⟩
  obtain ⟨es', hfind', hnames⟩ := h.directory hfind
  obtain ⟨es'', hfind'', hnames'⟩ := h'.directory hfind'
  exact ⟨es'', hfind'', fun n hn => hnames' n (hnames n hn)⟩

theorem SameFiles.trans {fs'' : FileSystem} (h : SameFiles fs fs') (h' : SameFiles fs' fs'') : SameFiles fs fs'' :=
  fun loc content => (h' loc content).trans (h loc content)

theorem Grows.follow (h : Grows fs fs') {step : String} (hstep : fs.follow here step = .ok loc) :
    fs'.follow here step = .ok loc := by
  obtain ⟨es, hfind, hleads⟩ := follow_eq_ok_iff.mp hstep
  obtain ⟨es', hfind', hnames⟩ := h.directory hfind
  refine follow_eq_ok_iff.mpr ⟨es', hfind', ?_⟩
  cases hleads with
  | stay hidle => exact .stay hidle
  | up => exact .up
  | down hidle hup hsize hname => exact .down hidle hup hsize (hnames _ hname)

theorem foldlM_cons_eq_ok_iff {step : String} {steps : List String} :
    (step :: steps).foldlM fs.follow here = .ok loc ↔
      ∃ next, fs.follow here step = .ok next ∧ steps.foldlM fs.follow next = .ok loc := by
  rw [List.foldlM_cons]
  exact bind_eq_ok_iff

theorem foldlM_concat_eq_ok_iff {step : String} {steps : List String} :
    (steps ++ [step]).foldlM fs.follow here = .ok loc ↔
      ∃ next, steps.foldlM fs.follow here = .ok next ∧ fs.follow next step = .ok loc := by
  rw [List.foldlM_append]
  refine bind_eq_ok_iff.trans (exists_congr fun next => and_congr_right fun _ => ?_)
  rw [foldlM_cons_eq_ok_iff]
  exact ⟨fun ⟨_, hstep, hend⟩ => by rwa [← Except.ok.inj hend], fun hstep => ⟨loc, hstep, rfl⟩⟩

theorem Grows.foldlM (h : Grows fs fs') {steps : List String} (hsteps : steps.foldlM fs.follow here = .ok loc) :
    steps.foldlM fs'.follow here = .ok loc := by
  induction steps generalizing here with
  | nil => exact hsteps
  | cons step steps ih =>
      obtain ⟨next, hstep, hrest⟩ := foldlM_cons_eq_ok_iff.mp hsteps
      exact foldlM_cons_eq_ok_iff.mpr ⟨next, h.follow hstep, ih hrest⟩

theorem Grows.start (h : Grows fs fs') (p : FilePath) : fs'.start p = fs.start p := by
  rw [FileSystem.start, FileSystem.start, h.working]

theorem Grows.locate (h : Grows fs fs') (hloc : fs.locate p = .ok loc) : fs'.locate p = .ok loc := by
  obtain ⟨here, hstart, hsteps⟩ := locate_eq_ok_iff.mp hloc
  exact locate_eq_ok_iff.mpr ⟨here, (h.start p).trans hstart, h.foldlM hsteps⟩

section

variable {entries : List (String × FileTree)} {name : String}

theorem find?_name_append (hhere : fs.root.find? here = some (.directory entries)) (rest : Location) :
    fs.root.find? (here ++ name :: rest) = (entries.lookup name).bind (·.find? rest) := by
  rw [FileTree.find?_append, hhere]
  rfl

theorem grows_put (new : FileTree) (hhere : fs.root.find? here = some (.directory entries))
    (hplace : ∀ es, entries.lookup name ≠ some (.directory es)) :
    Grows fs { fs with root := fs.root.put new (here ++ [name]) } := by
  refine ⟨rfl, fun {loc es} hloc => ?_⟩
  have hout : ¬ here ++ [name] <+: loc := by
    rintro ⟨rest, rfl⟩
    rw [List.append_assoc, List.singleton_append, find?_name_append hhere] at hloc
    obtain ⟨t, hlookup, hfind⟩ := Option.bind_eq_some_iff.mp hloc
    cases t with
    | directory es' => exact hplace es' hlookup
    | file content => cases rest <;> cases hfind
  rcases FileTree.widened_put new hhere hout with hsame | ⟨es₁, es₂, hbefore, hafter, hnames⟩
  · exact ⟨es, hsame.trans hloc, fun _ hn => hn⟩
  · rw [hloc] at hbefore
    cases hbefore
    exact ⟨es₂, hafter, hnames⟩

theorem follow_put (new : FileTree) (hhere : fs.root.find? here = some (.directory entries))
    (hplace : ∀ es, entries.lookup name ≠ some (.directory es)) (hidle : FilePath.isIdle name = false)
    (hup : name ≠ "..") (hsize : name.utf8ByteSize ≤ maxName) :
    { fs with root := fs.root.put new (here ++ [name]) }.follow here name = .ok (here ++ [name]) := by
  obtain ⟨es, hhere', -⟩ := (grows_put new hhere hplace).directory hhere
  have hname : (es.lookup name).isSome := by
    rw [← FileTree.find?_name hhere', FileTree.find?_put new name hhere []]
    rfl
  exact follow_eq_ok_iff.mpr ⟨es, hhere', .down hidle hup hsize hname⟩

theorem sameFiles_put_empty (hhere : fs.root.find? here = some (.directory entries))
    (hplace : entries.lookup name = none) :
    SameFiles fs { fs with root := fs.root.put .empty (here ++ [name]) } := by
  intro loc content
  by_cases hin : here ++ [name] <+: loc
  · obtain ⟨rest, rfl⟩ := hin
    rw [List.append_assoc, List.singleton_append, FileTree.find?_put .empty name hhere, find?_name_append hhere, hplace]
    cases rest <;> simp [FileTree.empty, FileTree.find?]
  · rcases FileTree.widened_put .empty hhere hin with hsame | ⟨es₁, es₂, hbefore, hafter, -⟩
    · rw [hsame]
    · rw [hbefore, hafter]
      simp

end

theorem entry?_eq_ok_iff {name : String} {found : Option FileTree} : fs.entry? here name = .ok found ↔
    ∃ entries, fs.root.find? here = some (.directory entries) ∧ name.utf8ByteSize ≤ maxName ∧
      entries.lookup name = found := by
  unfold entry?
  split
  next entries hfind => split_ifs with hsize <;> simp [hfind, hsize, Nat.not_lt.mp, Nat.not_le.mpr]
  next hfind =>
    refine ⟨nofun, ?_⟩
    rintro ⟨entries, hentries, -⟩
    exact (hfind entries hentries).elim

theorem makeDirectory_eq_ok (h : fs.makeDirectory p = .ok fs') : Grows fs fs' ∧ SameFiles fs fs' := by
  unfold makeDirectory at h
  obtain ⟨⟨here, name, slash⟩, -, h⟩ := bind_eq_ok_iff.mp h
  simp only at h
  split at h
  next => cases h
  next =>
    obtain ⟨found, hentry, h⟩ := bind_eq_ok_iff.mp h
    obtain ⟨entries, hhere, -, hlookup⟩ := entry?_eq_ok_iff.mp hentry
    cases found with
    | some t => cases h
    | none =>
        obtain rfl := Except.ok.inj h
        exact ⟨grows_put .empty hhere (by simp [hlookup]), sameFiles_put_empty hhere hlookup⟩

theorem makeFirst_keeps (fs : FileSystem) (ps : List FilePath) :
    Grows fs (fs.makeFirst ps).1 ∧ SameFiles fs (fs.makeFirst ps).1 := by
  induction ps with
  | nil => exact ⟨.refl fs, fun _ _ => Iff.rfl⟩
  | cons p above ih =>
      have hnext {fs₁ fs₂ : FileSystem} (h₁ : Grows fs fs₁ ∧ SameFiles fs fs₁)
          (h₂ : fs₁.makeDirectory p = .ok fs₂) : Grows fs fs₂ ∧ SameFiles fs fs₂ := by
        obtain ⟨hgrows, hfiles⟩ := makeDirectory_eq_ok h₂
        exact ⟨h₁.1.trans hgrows, h₁.2.trans hfiles⟩
      have hsame : Grows fs fs ∧ SameFiles fs fs := ⟨.refl fs, fun _ _ => Iff.rfl⟩
      unfold makeFirst
      split
      next =>
        -- What is above is made first, and then this one is tried again.
        split
        next fs₁ habove =>
          rw [habove] at ih
          cases hmake : fs₁.makeDirectory p with
          | ok fs₂ => exact hnext ih hmake
          | error cause => exact ih
        next fs₁ cause habove => rwa [habove] at ih
      next =>
        cases hmake : fs.makeDirectory p with
        | ok fs₂ => exact hnext hsame hmake
        | error cause => exact hsame

theorem makeDirectories_keeps (fs : FileSystem) (p : FilePath) :
    Grows fs (fs.makeDirectories p).1 ∧ SameFiles fs (fs.makeDirectories p).1 := makeFirst_keeps fs _

theorem lastStep_eq_ok {name : String} (h : fs.lastStep p = .ok (here, name, false)) :
    ∃ first before, fs.start p = .ok first ∧ p.steps = before ++ [name] ∧ name.isEmpty = false ∧
      before.foldlM fs.follow first = .ok here := by
  unfold lastStep at h
  obtain ⟨first, hstart, h⟩ := bind_eq_ok_iff.mp h
  cases hdrop : p.steps.reverse.dropWhile String.isEmpty with
  | nil =>
      simp only [hdrop] at h
      cases h
  | cons last before =>
      simp only [hdrop] at h
      obtain ⟨here', hbefore, h⟩ := bind_eq_ok_iff.mp h
      obtain ⟨next, hsteps, hdot⟩ := foldlM_concat_eq_ok_iff.mp hbefore
      obtain ⟨entries, -, hleads⟩ := follow_eq_ok_iff.mp hdot
      obtain rfl := hleads.eq_of_idle rfl
      obtain ⟨rfl, rfl, hhead⟩ : here' = here ∧ last = name ∧
          decide (p.steps.reverse.head? = some "") = false := by
        simpa [pure, Except.pure] using h
      -- No slash follows, so no step is empty at the end.
      have hreverse : p.steps.reverse = last :: before := by
        cases hall : p.steps.reverse with
        | nil =>
            rw [hall] at hdrop
            cases hdrop
        | cons step steps =>
            rw [hall] at hdrop hhead
            have hstep : step.isEmpty = false := by simpa [String.isEmpty_iff] using hhead
            rwa [List.dropWhile_cons, hstep] at hdrop
      have hlast : last.isEmpty = false := by simpa [hreverse, String.isEmpty_iff] using hhead
      exact ⟨first, before.reverse, hstart, by simpa using congrArg List.reverse hreverse, hlast, hsteps⟩

/-- A path leads to a name that a file in a directory has or can be given. -/
structure LeadsToFile (fs : FileSystem) (p : FilePath) (here : Location) (name : String) : Prop where
  steps : ∃ first before, fs.start p = .ok first ∧ p.steps = before ++ [name] ∧
    before.foldlM fs.follow first = .ok here
  place : ∃ entries, fs.root.find? here = some (.directory entries) ∧
    ∀ es, entries.lookup name ≠ some (.directory es)
  idle : FilePath.isIdle name = false
  up : name ≠ ".."
  size : name.utf8ByteSize ≤ maxName

theorem write_eq_ok {content : List UInt8} (h : fs.write p content = .ok fs') :
    ∃ here name, fs.LeadsToFile p here name ∧
      fs' = { fs with root := fs.root.put (.file content) (here ++ [name]) } := by
  unfold write at h
  obtain ⟨⟨here, name, slash⟩, hlast, h⟩ := bind_eq_ok_iff.mp h
  simp only at h
  split at h
  next => cases h
  next hname =>
    obtain ⟨rfl, hdot, hup⟩ : slash = false ∧ name ≠ "." ∧ name ≠ ".." := by simpa [and_assoc] using hname
    obtain ⟨first, before, hstart, hsteps, hne, hbefore⟩ := lastStep_eq_ok hlast
    obtain ⟨found, hentry, h⟩ := bind_eq_ok_iff.mp h
    obtain ⟨entries, hhere, hsize, rfl⟩ := entry?_eq_ok_iff.mp hentry
    have hidle : FilePath.isIdle name = false := by simp [FilePath.isIdle, hne, hdot]
    have hplace : ∃ first before, fs.start p = .ok first ∧ p.steps = before ++ [name] ∧
        before.foldlM fs.follow first = .ok here := ⟨first, before, hstart, hsteps, hbefore⟩
    refine ⟨here, name, ⟨hplace, ⟨entries, hhere, fun es hes => ?_⟩, hidle, hup, hsize⟩, ?_⟩
    · rw [hes] at h
      cases h
    · split at h
      next => cases h
      next => exact (Except.ok.inj h).symm

theorem read_write {content : List UInt8} (h : fs.write p content = .ok fs') : fs'.read p = .ok content := by
  obtain ⟨here, name, hleads, rfl⟩ := write_eq_ok h
  obtain ⟨first, before, hstart, hsteps, hbefore⟩ := hleads.steps
  obtain ⟨entries, hhere, hplace⟩ := hleads.place
  have hgrows := grows_put (.file content) hhere hplace
  have hfollow := follow_put (.file content) hhere hplace hleads.idle hleads.up hleads.size
  refine read_eq_ok_iff.mpr ⟨here ++ [name], locate_eq_ok_iff.mpr ⟨first, (hgrows.start p).trans hstart, ?_⟩,
    FileTree.find?_put (.file content) name hhere []⟩
  rw [hsteps]
  exact foldlM_concat_eq_ok_iff.mpr ⟨here, hgrows.foldlM hbefore, hfollow⟩

theorem foldlM_prefix {steps : List String} (h : steps.foldlM fs.follow here = .ok loc) (hup : ".." ∉ steps) :
    here <+: loc := by
  induction steps generalizing here with
  | nil =>
      obtain rfl := Except.ok.inj h
      exact List.prefix_refl here
  | cons step steps ih =>
      obtain ⟨hne, hup⟩ := List.ne_and_not_mem_of_not_mem_cons hup
      obtain ⟨next, hstep, hrest⟩ := foldlM_cons_eq_ok_iff.mp h
      obtain ⟨es, -, hleads⟩ := follow_eq_ok_iff.mp hstep
      cases hleads with
      | stay => exact ih hrest hup
      | up => exact (hne rfl).elim
      | down => exact (List.prefix_append here [step]).trans (ih hrest hup)

/-- Steps that never go up and lead to a directory lead there wherever it is one. -/
theorem foldlM_of_directory {steps : List String} {es : List (String × FileTree)}
    (h : steps.foldlM fs'.follow here = .ok loc) (hup : ".." ∉ steps)
    (hloc : fs.root.find? loc = some (.directory es)) : steps.foldlM fs.follow here = .ok loc := by
  induction steps generalizing here with
  | nil => exact h
  | cons step steps ih =>
      obtain ⟨hne, hup⟩ := List.ne_and_not_mem_of_not_mem_cons hup
      obtain ⟨next, hstep, hrest⟩ := foldlM_cons_eq_ok_iff.mp h
      have hnext := foldlM_prefix hrest hup
      refine foldlM_cons_eq_ok_iff.mpr ⟨next, ?_, ih hrest hup⟩
      obtain ⟨es', -, hleads⟩ := follow_eq_ok_iff.mp hstep
      cases hleads with
      | up => exact (hne rfl).elim
      | down hidle _ hsize hname =>
          obtain ⟨rest, rfl⟩ := hnext
          rw [List.append_assoc, List.singleton_append] at hloc
          obtain ⟨es'', hhere, hname⟩ := FileTree.exists_directory hloc
          exact follow_eq_ok_iff.mpr ⟨es'', hhere, .down hidle hne.symm hsize hname⟩
      | stay hidle =>
          obtain ⟨rest, rfl⟩ := hnext
          cases rest with
          | nil =>
              rw [List.append_nil] at hloc
              exact follow_eq_ok_iff.mpr ⟨es, hloc, .stay hidle⟩
          | cons name rest =>
              obtain ⟨es'', hhere, -⟩ := FileTree.exists_directory hloc
              exact follow_eq_ok_iff.mpr ⟨es'', hhere, .stay hidle⟩

section

variable {dir : FilePath} {name : String}

theorem start_child_iff (hdir : dir.IsOpen) : fs.start (dir ++ "/" ++ name) = .ok here ↔
    fs.start dir = .ok here ∧ '\x00' ∉ name.toList ∧ (dir ++ "/" ++ name).utf8ByteSize < maxPath := by
  have habsolute : FilePath.isAbsolute (dir ++ "/" ++ name) = dir.isAbsolute := by
    rw [Bool.eq_iff_iff, FilePath.isAbsolute_iff, FilePath.isAbsolute_iff, String.toList_append, String.toList_append,
      List.append_assoc, List.head?_append_of_ne_nil _ hdir.1]
  have hempty : (dir ++ "/" ++ name).isEmpty = false := by
    rw [← Bool.not_eq_true, String.isEmpty_iff, ← String.toList_eq_nil_iff]
    simp [hdir.1]
  have hempty' : dir.isEmpty = false := by
    rw [← Bool.not_eq_true, String.isEmpty_iff, ← String.toList_eq_nil_iff]
    exact hdir.1
  have hsize : dir.utf8ByteSize ≤ (dir ++ "/" ++ name).utf8ByteSize := by
    rw [String.utf8ByteSize_append, String.utf8ByteSize_append]
    omega
  rw [start_eq_ok_iff, start_eq_ok_iff, habsolute]
  have hnul : '\x00' ∉ (dir ++ "/" ++ name).toList ↔ '\x00' ∉ dir.toList ∧ '\x00' ∉ name.toList := by
    simp
  rw [hnul]
  constructor
  · rintro ⟨⟨hdirnul, hnamenul⟩, -, hlt, rfl⟩
    exact ⟨⟨hdirnul, hempty', Nat.lt_of_le_of_lt hsize hlt, rfl⟩, hnamenul, hlt⟩
  · rintro ⟨⟨hdirnul, -, -, rfl⟩, hnamenul, hlt⟩
    exact ⟨⟨hdirnul, hnamenul⟩, hempty, hlt, rfl⟩

theorem locate_child_iff (hdir : dir.IsOpen) (hname : '/' ∉ name.toList) :
    fs.locate (dir ++ "/" ++ name) = .ok loc ↔ ∃ here, fs.locate dir = .ok here ∧ '\x00' ∉ name.toList ∧
      (dir ++ "/" ++ name).utf8ByteSize < maxPath ∧ fs.follow here name = .ok loc := by
  rw [locate_eq_ok_iff, FilePath.steps_append, FilePath.steps_of_not_mem hname]
  constructor
  · rintro ⟨first, hstart, hsteps⟩
    obtain ⟨hstart, hnul, hsize⟩ := (start_child_iff hdir).mp hstart
    obtain ⟨here, hsteps, hlast⟩ := foldlM_concat_eq_ok_iff.mp hsteps
    exact ⟨here, locate_eq_ok_iff.mpr ⟨first, hstart, hsteps⟩, hnul, hsize, hlast⟩
  · rintro ⟨here, hlocate, hnul, hsize, hlast⟩
    obtain ⟨first, hstart, hsteps⟩ := locate_eq_ok_iff.mp hlocate
    exact ⟨first, (start_child_iff hdir).mpr ⟨hstart, hnul, hsize⟩,
      foldlM_concat_eq_ok_iff.mpr ⟨here, hsteps, hlast⟩⟩

theorem Leads.of_name {entries : List (String × FileTree)} (h : Leads entries here name loc)
    (hidle : FilePath.isIdle name = false) (hup : name ≠ "..") :
    loc = here ++ [name] ∧ name.utf8ByteSize ≤ maxName ∧ (entries.lookup name).isSome := by
  cases h with
  | stay hidle' => cases hidle'.symm.trans hidle
  | up => exact (hup rfl).elim
  | down _ _ hsize hlookup => exact ⟨rfl, hsize, hlookup⟩

/-- A file in a directory reads the same when directories have been made. If the directory itself was
missing, its path must not go up, for then it might lead elsewhere after. -/
theorem read_child_of_grows {content : List UInt8} (hgrows : Grows fs fs') (hfiles : SameFiles fs fs')
    (hdir : dir.IsOpen) (hname : '/' ∉ name.toList) (hidle : FilePath.isIdle name = false) (hup : name ≠ "..")
    (hreach : (∃ here, fs.locate dir = .ok here) ∨ ".." ∉ dir.steps) :
    fs'.read (dir ++ "/" ++ name) = .ok content ↔ fs.read (dir ++ "/" ++ name) = .ok content := by
  rw [read_eq_ok_iff, read_eq_ok_iff]
  constructor
  · rintro ⟨loc, hloc, hfile⟩
    obtain ⟨here, hhere, hnul, hsize, hfollow⟩ := (locate_child_iff hdir hname).mp hloc
    obtain ⟨entries, -, hleads⟩ := follow_eq_ok_iff.mp hfollow
    obtain ⟨rfl, hnamesize, -⟩ := hleads.of_name hidle hup
    have hfile := (hfiles _ _).mp hfile
    obtain ⟨es, hes, hlookup⟩ := FileTree.exists_directory hfile
    have hbefore : fs.locate dir = .ok here := by
      rcases hreach with ⟨here', hhere'⟩ | hnoup
      · obtain rfl := Except.ok.inj (hhere.symm.trans (hgrows.locate hhere'))
        exact hhere'
      · obtain ⟨first, hstart, hsteps⟩ := locate_eq_ok_iff.mp hhere
        exact locate_eq_ok_iff.mpr ⟨first, (hgrows.start dir).symm.trans hstart,
          foldlM_of_directory hsteps hnoup hes⟩
    exact ⟨_, (locate_child_iff hdir hname).mpr ⟨here, hbefore, hnul, hsize,
      follow_eq_ok_iff.mpr ⟨es, hes, .down hidle hup hnamesize hlookup⟩⟩, hfile⟩
  · rintro ⟨loc, hloc, hfile⟩
    exact ⟨loc, hgrows.locate hloc, (hfiles _ _).mpr hfile⟩

end

end FileSystem
end LineTint
