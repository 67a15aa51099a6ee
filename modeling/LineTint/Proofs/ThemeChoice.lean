import LineTint.Proofs.BuiltinTheme
import LineTint.Proofs.FilePlace

namespace LineTint

namespace FilePath

theorem divide_append {stem suffix : String} (hstem : stem ≠ "") (hsuffix : '.' ∉ suffix.toList) :
    divide (stem ++ "." ++ suffix) = (stem, some suffix) := by
  have hcut : Text.cutAtDot (stem ++ "." ++ suffix).toList = some (stem.toList, suffix.toList) := by
    rw [Text.cutAtDot_eq_some_iff]
    exact ⟨by simp, hsuffix⟩
  unfold divide
  rw [hcut]
  split
  next h => cases h
  next h => exact absurd (String.toList_eq_nil_iff.mp (congrArg Prod.fst (Option.some.inj h))) hstem
  next h =>
    obtain ⟨rfl, rfl⟩ := Prod.mk.inj (Option.some.inj h)
    rw [String.ofList_toList, String.ofList_toList]

theorem eq_of_divide {name suffix : String} (h : (divide name).2 = some suffix) :
    name = (divide name).1 ++ "." ++ suffix ∧ (divide name).1 ≠ "" := by
  unfold divide at h ⊢
  split at h
  next => cases h
  next => cases h
  next stem suffix' hne hcut =>
    obtain rfl := Option.some.inj h
    obtain ⟨hname, -⟩ := Text.cutAtDot_eq_some_iff.mp hcut
    constructor
    · rw [← String.toList_inj, hname]
      simp
    · exact fun hempty => hne (by simpa using congrArg String.toList hempty)

end FilePath

namespace Theme

theorem mem_distinct_iff {seen : List String} {ts : List Listed} {x : Listed} :
    x ∈ distinct seen ts ↔ x.id ∉ seen ∧ ts.find? (·.id = x.id) = some x := by
  induction ts generalizing seen with
  | nil => simp [distinct]
  | cons t ts ih =>
      rw [distinct, List.find?_cons]
      by_cases hid : t.id = x.id
      · by_cases hseen : x.id ∈ seen
        · simp [hid, hseen, ih]
        · have hrest : x ∉ distinct (t.id :: seen) ts := fun h => (ih.mp h).1 (by simp [hid])
          simp [hid, hseen] at hrest ⊢
          simp [hrest, eq_comm]
      · have hne : x ≠ t := fun h => hid (congrArg Listed.id h.symm)
        by_cases hseen : t.id ∈ seen
        · simp [hid, hseen, ih]
        · simp [hid, hseen, ih, hne, Ne.symm hid]

theorem nodup_distinct (seen : List String) (ts : List Listed) : ((distinct seen ts).map (·.id)).Nodup := by
  induction ts generalizing seen with
  | nil => exact List.nodup_nil
  | cons t ts ih =>
      rw [distinct]
      split
      next => exact ih seen
      next =>
        refine List.nodup_cons.mpr ⟨fun hmem => ?_, ih _⟩
        obtain ⟨x, hx, hid⟩ := List.mem_map.mp hmem
        exact (mem_distinct_iff.mp hx).1 (by simp [hid])

variable {fs : FileSystem} {home : Home} {files : List String} {id file : String}

def userFiles (fs : FileSystem) (home : Home) : List String := (fs.list home.themes).toOption.getD []

/-- What a name in a directory of the system can be. -/
def IsFileName (name : String) : Prop :=
  '/' ∉ name.toList ∧ '\x00' ∉ name.toList ∧ name.utf8ByteSize ≤ FileSystem.maxName

instance (name : String) : Decidable (IsFileName name) := inferInstanceAs (Decidable (_ ∧ _ ∧ _))

def listedFile (fs : FileSystem) (home : Home) (file : String) : Listed :=
  let id := (FilePath.divide file).1
  match ofFile fs (FilePath.join home.themes file) with
  | .ok t => ⟨id, t.name, .user⟩
  | .error _ => ⟨id, id, .user⟩

/-- The list that comes of reading the names in some order. -/
def listFrom (fs : FileSystem) (home : Home) (files : List String) : List Listed :=
  distinct [] ((files.filter isThemeFile).map (listedFile fs home) ++ listBuiltin)

theorem list_eq_listFrom (fs : FileSystem) (home : Home) : list fs home = listFrom fs home (userFiles fs home) := by
  unfold list listFrom listUser userFiles
  cases fs.list home.themes with
  | error cause => rfl
  | ok names => rfl

/-- Where loading looks for the theme with an id. -/
def source (fs : FileSystem) (home : Home) (id : String) : Origin :=
  if fs.contains (home.theme id) then .user else .builtin

def Origin.take (fs : FileSystem) (home : Home) (id : String) : Origin → Except LoadError Theme
  | .user => ofFile fs (home.theme id)
  | .builtin => ofId id

theorem load_eq_take (fs : FileSystem) (home : Home) (id : String) :
    load fs home id = (source fs home id).take fs home id := by
  unfold load source
  split <;> rfl

/-- Loading does what the list says: it looks where the entry is from, and finds the name of the entry. -/
structure Agrees (fs : FileSystem) (home : Home) (x : Listed) : Prop where
  origin : source fs home x.id = x.origin
  name : ∀ t, load fs home x.id = .ok t → t.name = x.name

/-- The file that is listed for an id: of the two names that it can have, the one that is read first. -/
def firstFile (files : List String) (id : String) : Option String :=
  files.find? fun file => file = id ++ ".yaml" || file = id ++ ".yml"

theorem isThemeFile_iff : isThemeFile file = true ↔
    (FilePath.divide file).2 = some "yaml" ∨ (FilePath.divide file).2 = some "yml" := by
  unfold isThemeFile
  cases (FilePath.divide file).2 with
  | none => simp
  | some suffix => simp

theorem standsFor_iff (hid : id ≠ "") :
    (isThemeFile file = true ∧ (FilePath.divide file).1 = id) ↔ (file = id ++ ".yaml" ∨ file = id ++ ".yml") := by
  constructor
  · rintro ⟨hfile, rfl⟩
    rcases isThemeFile_iff.mp hfile with hsuffix | hsuffix
    · left
      obtain ⟨hname, -⟩ := FilePath.eq_of_divide hsuffix
      rwa [String.append_assoc] at hname
    · right
      obtain ⟨hname, -⟩ := FilePath.eq_of_divide hsuffix
      rwa [String.append_assoc] at hname
  · rintro (rfl | rfl)
    · have hdivide : FilePath.divide (id ++ ".yaml") = (id, some "yaml") := by
        rw [show id ++ ".yaml" = id ++ "." ++ "yaml" by rw [String.append_assoc]; rfl]
        exact FilePath.divide_append hid (by decide)
      rw [isThemeFile, hdivide]
      exact ⟨rfl, rfl⟩
    · have hdivide : FilePath.divide (id ++ ".yml") = (id, some "yml") := by
        rw [show id ++ ".yml" = id ++ "." ++ "yml" by rw [String.append_assoc]; rfl]
        exact FilePath.divide_append hid (by decide)
      rw [isThemeFile, hdivide]
      exact ⟨rfl, rfl⟩

theorem stem_ne_empty (hfile : isThemeFile file = true) : (FilePath.divide file).1 ≠ "" := by
  rcases isThemeFile_iff.mp hfile with hsuffix | hsuffix
  · exact (FilePath.eq_of_divide hsuffix).2
  · exact (FilePath.eq_of_divide hsuffix).2

theorem listedFile_id (fs : FileSystem) (home : Home) (file : String) :
    (listedFile fs home file).id = (FilePath.divide file).1 := by
  unfold listedFile
  split <;> rfl

theorem listedFile_origin (fs : FileSystem) (home : Home) (file : String) :
    (listedFile fs home file).origin = .user := by
  unfold listedFile
  split <;> rfl

theorem listedFile_name {t : Theme} (ht : ofFile fs (FilePath.join home.themes file) = .ok t) :
    (listedFile fs home file).name = t.name := by
  unfold listedFile
  rw [ht]

theorem listedBuiltin_id (id text : String) : (listedBuiltin id text).id = id := by
  unfold listedBuiltin
  split <;> rfl

theorem listedBuiltin_origin (id text : String) : (listedBuiltin id text).origin = .builtin := by
  unfold listedBuiltin
  split <;> rfl

theorem listedBuiltin_name {text : String} {t : Theme} (ht : ofYaml text = .ok t) :
    (listedBuiltin id text).name = t.name := by
  unfold listedBuiltin
  rw [ht]

theorem find?_listedFile (hid : id ≠ "") :
    ((files.filter isThemeFile).map (listedFile fs home)).find? (·.id = id) =
      (firstFile files id).map (listedFile fs home) := by
  rw [List.find?_map, List.find?_filter, firstFile]
  congr 2
  funext file
  rw [Bool.eq_iff_iff]
  simpa [listedFile_id] using standsFor_iff hid

theorem find?_listBuiltin (id : String) :
    listBuiltin.find? (·.id = id) = (builtin? id).map (listedBuiltin id) := by
  unfold listBuiltin builtin?
  induction builtin with
  | nil => rfl
  | cons entry entries ih =>
      obtain ⟨id', text⟩ := entry
      rw [List.map_cons, List.find?_cons, List.lookup_cons, ih, listedBuiltin_id]
      by_cases h : id' = id
      · subst h
        simp
      · have hne : (id == id') = false := beq_false_of_ne (Ne.symm h)
        simp [h, hne]

theorem ids_of_builtin : ∀ entry ∈ builtin, entry.1 ≠ "" ∧ '/' ∉ entry.1.toList ∧ '\x00' ∉ entry.1.toList := by
  decide

theorem ne_empty_of_mem {x : Listed} (hx : x ∈ listFrom fs home files) : x.id ≠ "" := by
  have hfind := List.mem_of_find?_eq_some (mem_distinct_iff.mp hx).2
  rcases List.mem_append.mp hfind with hmem | hmem
  · obtain ⟨file, hfile, rfl⟩ := List.mem_map.mp hmem
    rw [listedFile_id]
    exact stem_ne_empty (List.mem_filter.mp hfile).2
  · obtain ⟨entry, hentry, rfl⟩ := List.mem_map.mp hmem
    rw [listedBuiltin_id]
    exact (ids_of_builtin entry hentry).1

theorem mem_listFrom_iff {x : Listed} (hid : x.id ≠ "") : x ∈ listFrom fs home files ↔
    ((firstFile files x.id).map (listedFile fs home)).or
      ((builtin? x.id).map (listedBuiltin x.id)) = some x := by
  rw [listFrom, mem_distinct_iff, List.find?_append, find?_listedFile hid, find?_listBuiltin]
  simp

theorem exists_listed_user (fs : FileSystem) (home : Home) (hid : id ≠ "") (hfirst : firstFile files id = some file) :
    ∃ x ∈ listFrom fs home files, x.id = id ∧ x.origin = .user := by
  have hstem : (listedFile fs home file).id = id := by
    have hfile : file = id ++ ".yaml" ∨ file = id ++ ".yml" := by simpa using List.find?_some hfirst
    rw [listedFile_id]
    exact ((standsFor_iff hid).mpr hfile).2
  refine ⟨listedFile fs home file, ?_, hstem, listedFile_origin fs home file⟩
  rw [mem_listFrom_iff (by rwa [hstem]), hstem, hfirst]
  rfl

theorem exists_listed_builtin {text : String} (hid : id ≠ "") (htext : builtin? id = some text) :
    ∃ x ∈ listFrom fs home files, x.id = id := by
  cases hfirst : firstFile files id with
  | some file =>
      obtain ⟨x, hx, hxid, -⟩ := exists_listed_user fs home hid hfirst
      exact ⟨x, hx, hxid⟩
  | none =>
      have hlisted := listedBuiltin_id id text
      refine ⟨listedBuiltin id text, (mem_listFrom_iff (by rwa [hlisted])).mpr ?_, hlisted⟩
      rw [hlisted, hfirst, htext]
      rfl

theorem mem_userFiles_iff : file ∈ userFiles fs home ↔ ∃ here entries, fs.locate home.themes = .ok here ∧
    fs.root.find? here = some (.directory entries) ∧ (entries.lookup file).isSome := by
  have hnames (entries : List (String × FileTree)) :
      file ∈ NameHash.sort (entries.map (·.1)) ↔ (entries.lookup file).isSome := by
    rw [NameHash.sort, List.mem_mergeSort, List.lookup_isSome_iff, List.mem_map]
    refine exists_congr fun entry => and_congr_right fun _ => ?_
    rw [beq_iff_eq, eq_comm]
  unfold userFiles FileSystem.list
  cases hget : fs.get home.themes with
  | error cause =>
      refine ⟨fun h => (nomatch h), ?_⟩
      rintro ⟨here, entries, hhere, hfind, -⟩
      cases hget.symm.trans (FileSystem.get_eq_ok_iff.mpr ⟨here, hhere, hfind⟩)
  | ok t =>
      obtain ⟨here, hhere, hfind⟩ := FileSystem.get_eq_ok_iff.mp hget
      cases t with
      | file content =>
          refine ⟨fun h => (nomatch h), ?_⟩
          rintro ⟨here', entries, hhere', hfind', -⟩
          cases hget.symm.trans (FileSystem.get_eq_ok_iff.mpr ⟨here', hhere', hfind'⟩)
      | directory entries =>
          refine (hnames entries).trans ⟨fun h => ⟨here, entries, hhere, hfind, h⟩, ?_⟩
          rintro ⟨here', entries', hhere', hfind', h⟩
          have heq := hget.symm.trans (FileSystem.get_eq_ok_iff.mpr ⟨here', hhere', hfind'⟩)
          obtain rfl := FileTree.directory.inj (Except.ok.inj heq)
          exact h

theorem theme_eq (hslash : '/' ∉ id.toList) : home.theme id = home.themes ++ "/" ++ (id ++ ".yaml") :=
  home.join_themes (by simpa using hslash)

theorem contains_theme_iff (hslash : '/' ∉ id.toList) (hnul : '\x00' ∉ id.toList) :
    fs.contains (home.theme id) = true ↔ id ++ ".yaml" ∈ userFiles fs home ∧
      (id ++ ".yaml").utf8ByteSize ≤ FileSystem.maxName ∧ (home.theme id).utf8ByteSize < FileSystem.maxPath := by
  have hslash' : '/' ∉ (id ++ ".yaml").toList := by simpa using hslash
  have hnul' : '\x00' ∉ (id ++ ".yaml").toList := by simpa using hnul
  have hne {name : String} (hname : name.toList.length < 5) : id ++ ".yaml" ≠ name := by
    rintro rfl
    rw [String.toList_append, List.length_append] at hname
    exact absurd hname (Nat.not_lt.mpr (Nat.le_add_left 5 _))
  have hidle : FilePath.isIdle (id ++ ".yaml") = false := by
    rw [FilePath.isIdle, Bool.or_eq_false_iff, ← Bool.not_eq_true, String.isEmpty_iff]
    exact ⟨hne (by decide), decide_eq_false (hne (by decide))⟩
  have hup : id ++ ".yaml" ≠ ".." := hne (by decide)
  have hcontains : fs.contains (home.theme id) = true ↔ ∃ t, fs.get (home.theme id) = .ok t := by
    unfold FileSystem.contains
    cases fs.get (home.theme id) <;> simp
  rw [hcontains, mem_userFiles_iff, theme_eq hslash]
  constructor
  · rintro ⟨t, hget⟩
    obtain ⟨loc, hloc, -⟩ := FileSystem.get_eq_ok_iff.mp hget
    obtain ⟨here, hhere, -, hsize, hfollow⟩ := (FileSystem.locate_child_iff home.themes_isOpen hslash').mp hloc
    obtain ⟨entries, hfind, hleads⟩ := FileSystem.follow_eq_ok_iff.mp hfollow
    obtain ⟨-, hnamesize, hlookup⟩ := hleads.of_name hidle hup
    exact ⟨⟨here, entries, hhere, hfind, hlookup⟩, hnamesize, hsize⟩
  · rintro ⟨⟨here, entries, hhere, hfind, hlookup⟩, hnamesize, hsize⟩
    obtain ⟨t, ht⟩ := Option.isSome_iff_exists.mp hlookup
    have hloc := (FileSystem.locate_child_iff home.themes_isOpen hslash').mpr ⟨here, hhere, hnul', hsize,
      FileSystem.follow_eq_ok_iff.mpr ⟨entries, hfind, .down hidle hup hnamesize hlookup⟩⟩
    exact ⟨t, FileSystem.get_eq_ok_iff.mpr ⟨_, hloc, (FileTree.find?_name hfind _).trans ht⟩⟩

theorem IsFileName.of_append {suffix : String} (h : IsFileName (id ++ suffix)) :
    '/' ∉ id.toList ∧ '\x00' ∉ id.toList := by
  rw [IsFileName, String.toList_append, List.mem_append, List.mem_append, not_or, not_or] at h
  exact ⟨h.1.1, h.2.1.1⟩

theorem mem_of_firstFile (h : firstFile files id = some file) :
    file ∈ files ∧ (file = id ++ ".yaml" ∨ file = id ++ ".yml") :=
  ⟨List.mem_of_find?_eq_some h, by simpa using List.find?_some h⟩

theorem not_mem_of_firstFile (h : firstFile files id = none) : id ++ ".yaml" ∉ files ∧ id ++ ".yml" ∉ files := by
  constructor
  · intro hmem
    simpa using List.find?_eq_none.mp h _ hmem
  · intro hmem
    simpa using List.find?_eq_none.mp h _ hmem

theorem exists_firstFile {x : Listed} (hx : x ∈ listFrom fs home files) (horigin : x.origin = .user) :
    ∃ file, firstFile files x.id = some file ∧ listedFile fs home file = x := by
  rw [mem_listFrom_iff (ne_empty_of_mem hx)] at hx
  cases hfirst : firstFile files x.id with
  | some file =>
      rw [hfirst] at hx
      exact ⟨file, rfl, Option.some.inj hx⟩
  | none =>
      rw [hfirst, Option.map_none, Option.none_or] at hx
      obtain ⟨text, -, hxtext⟩ := Option.map_eq_some_iff.mp hx
      rw [← hxtext, listedBuiltin_origin] at horigin
      cases horigin

theorem exists_builtin {x : Listed} (hx : x ∈ listFrom fs home files) (horigin : x.origin = .builtin) :
    firstFile files x.id = none ∧ ∃ text, builtin? x.id = some text ∧ listedBuiltin x.id text = x := by
  rw [mem_listFrom_iff (ne_empty_of_mem hx)] at hx
  cases hfirst : firstFile files x.id with
  | some file =>
      rw [hfirst] at hx
      obtain rfl := Option.some.inj hx
      cases horigin.symm.trans (listedFile_origin fs home file)
  | none =>
      rw [hfirst, Option.map_none, Option.none_or] at hx
      exact ⟨rfl, Option.map_eq_some_iff.mp hx⟩

variable (hperm : files.Perm (userFiles fs home)) (hnames : ∀ file ∈ files, IsFileName file)

include hperm hnames in
theorem source_eq_user_iff (hslash : '/' ∉ id.toList) (hnul : '\x00' ∉ id.toList) :
    source fs home id = .user ↔ id ++ ".yaml" ∈ files ∧ (home.theme id).utf8ByteSize < FileSystem.maxPath := by
  have hsource : source fs home id = .user ↔ fs.contains (home.theme id) = true := by
    unfold source
    split <;> simp [*]
  rw [hsource, contains_theme_iff hslash hnul, ← hperm.mem_iff]
  exact ⟨fun h => ⟨h.1, h.2.2⟩, fun h => ⟨h.1, (hnames _ h.1).2.2, h.2⟩⟩

include hperm hnames in
theorem agrees_of_builtin {x : Listed} (hx : x ∈ listFrom fs home files) (horigin : x.origin = .builtin) :
    Agrees fs home x := by
  obtain ⟨hfirst, text, htext, hxtext⟩ := exists_builtin hx horigin
  obtain ⟨before, after, hmem, -⟩ := List.lookup_eq_some_iff.mp htext
  obtain ⟨-, hslash, hnul⟩ := ids_of_builtin (x.id, text) (by simp [hmem])
  have hsource : source fs home x.id = .builtin := by
    cases h : source fs home x.id with
    | builtin => rfl
    | user =>
        have hfile := ((source_eq_user_iff hperm hnames hslash hnul).mp h).1
        exact absurd hfile (not_mem_of_firstFile hfirst).1
  refine ⟨hsource.trans horigin.symm, fun t ht => ?_⟩
  rw [load_eq_take, hsource, Origin.take, ofId, htext] at ht
  rw [← listedBuiltin_name (mapError_eq_ok_iff.mp ht), hxtext]

include hperm hnames in
theorem agrees_iff_of_user {x : Listed} (hx : x ∈ listFrom fs home files) (horigin : x.origin = .user) :
    Agrees fs home x ↔ x.id ++ ".yaml" ∈ files ∧ (home.theme x.id).utf8ByteSize < FileSystem.maxPath ∧
      (firstFile files x.id = some (x.id ++ ".yml") → ∀ t, load fs home x.id = .ok t → t.name = x.name) := by
  obtain ⟨file, hfirst, hxfile⟩ := exists_firstFile hx horigin
  obtain ⟨hmem, hfile⟩ := mem_of_firstFile hfirst
  obtain ⟨hslash, hnul⟩ : '/' ∉ x.id.toList ∧ '\x00' ∉ x.id.toList := by
    rcases hfile with rfl | rfl
    · exact (hnames _ hmem).of_append
    · exact (hnames _ hmem).of_append
  have hsource := source_eq_user_iff hperm hnames hslash hnul
  constructor
  · intro h
    obtain ⟨hyaml, hsize⟩ := hsource.mp (h.origin.trans horigin)
    exact ⟨hyaml, hsize, fun _ => h.name⟩
  · rintro ⟨hyaml, hsize, hname⟩
    have huser := hsource.mpr ⟨hyaml, hsize⟩
    refine ⟨huser.trans horigin.symm, ?_⟩
    rcases hfile with rfl | rfl
    · intro t ht
      rw [load_eq_take, huser] at ht
      rw [← listedFile_name ht, hxfile]
    · exact hname hfirst

/-- In whatever order the user's directory is read, each id is listed once: all built-in ids, and as the
user's those with a file `.yaml` or `.yml`. Loading agrees with an entry of the user's where there is a file
`.yaml` for its id, with a path that is not too long, unless a file `.yml` with another name for the theme is
read before it. It agrees with every other entry. -/
theorem list_agrees_iff (fs : FileSystem) (home : Home) {files : List String}
    (hperm : files.Perm (userFiles fs home)) (hnames : ∀ file ∈ files, IsFileName file) :
    list fs home = listFrom fs home (userFiles fs home) ∧
      (∀ id, load fs home id = (source fs home id).take fs home id) ∧
      ((listFrom fs home files).map (·.id)).Nodup ∧
      (∀ entry ∈ builtin, ∃ x ∈ listFrom fs home files, x.id = entry.1) ∧
      (∀ id, (∃ x ∈ listFrom fs home files, x.id = id ∧ x.origin = .user) ↔
        id ≠ "" ∧ (id ++ ".yaml" ∈ files ∨ id ++ ".yml" ∈ files)) ∧
      ∀ x ∈ listFrom fs home files, Agrees fs home x ↔
        (x.origin = .user → x.id ++ ".yaml" ∈ files ∧ (home.theme x.id).utf8ByteSize < FileSystem.maxPath ∧
          (firstFile files x.id = some (x.id ++ ".yml") → ∀ t, load fs home x.id = .ok t → t.name = x.name)) := by
  refine ⟨list_eq_listFrom fs home, load_eq_take fs home, nodup_distinct _ _, ?_, ?_, fun x hx => ?_⟩
  · intro entry hentry
    have hknown : ∀ entry ∈ builtin, (builtin? entry.1).isSome = true := by decide
    obtain ⟨text, htext⟩ := Option.isSome_iff_exists.mp (hknown entry hentry)
    exact exists_listed_builtin (ids_of_builtin entry hentry).1 htext
  · intro id
    constructor
    · rintro ⟨x, hx, rfl, horigin⟩
      obtain ⟨file, hfirst, -⟩ := exists_firstFile hx horigin
      obtain ⟨hmem, rfl | rfl⟩ := mem_of_firstFile hfirst
      · exact ⟨ne_empty_of_mem hx, Or.inl hmem⟩
      · exact ⟨ne_empty_of_mem hx, Or.inr hmem⟩
    · rintro ⟨hid, hmem⟩
      cases hfirst : firstFile files id with
      | none => exact absurd hmem (not_or.mpr (not_mem_of_firstFile hfirst))
      | some file => exact exists_listed_user fs home hid hfirst
  · cases horigin : x.origin with
    | builtin => exact iff_of_true (agrees_of_builtin hperm hnames hx horigin) nofun
    | user =>
        rw [agrees_iff_of_user hperm hnames hx horigin]
        exact ⟨fun h _ => h, fun h => h rfl⟩

def themesIn (files : List (String × FileTree)) : FileSystem where
  root := .directory [(".config", .directory [("token-editor", .directory [("themes", .directory files)])])]

def namedTheme (name : String) : FileTree := .file (Text.bytes ("version: 1\nname: " ++ name ++ "\n"))

def endsInYml : FileSystem := themesIn [("github-light.yml", namedTheme "Mine")]

/-- A theme in a file `.yml` is listed as the user's, and another one is loaded for it. -/
theorem listed_not_loaded :
    (∀ file ∈ userFiles endsInYml Home.atRoot, IsFileName file) ∧
      ⟨"github-light", "Mine", .user⟩ ∈ list endsInYml Home.atRoot ∧
      source endsInYml Home.atRoot "github-light" = .builtin ∧
      (∃ t, load endsInYml Home.atRoot "github-light" = .ok t ∧ ofYaml (ofLines githubLight) = .ok t ∧
        t.name = "GitHub Light") ∧
      ¬ Agrees endsInYml Home.atRoot ⟨"github-light", "Mine", .user⟩ := by
  have hsource : source endsInYml Home.atRoot "github-light" = .builtin := by decide +kernel
  obtain ⟨t, ht, hname⟩ := exists_githubLight
  have hload : load endsInYml Home.atRoot "github-light" = .ok t :=
    load_builtin (by decide +kernel) builtin?_githubLight ht
  refine ⟨by decide +kernel, by decide +kernel, hsource, ⟨t, hload, ht, hname⟩, fun h => ?_⟩
  cases hsource.symm.trans h.origin

def shadowsBuiltin : FileSystem := themesIn [("default-dark.yaml", namedTheme "Mine")]

theorem list_agrees_iff_shadowed :
    ["default-dark.yaml"].Perm (userFiles shadowsBuiltin Home.atRoot) ∧
      (∀ file ∈ ["default-dark.yaml"], IsFileName file) ∧
      ∃ x ∈ listFrom shadowsBuiltin Home.atRoot ["default-dark.yaml"],
        x = ⟨"default-dark", "Mine", .user⟩ ∧
          Agrees shadowsBuiltin Home.atRoot x := by
  have hperm : ["default-dark.yaml"].Perm (userFiles shadowsBuiltin Home.atRoot) := by decide +kernel
  have hnames : ∀ file ∈ ["default-dark.yaml"], IsFileName file := by decide +kernel
  have hmem : ⟨"default-dark", "Mine", .user⟩ ∈
      listFrom shadowsBuiltin Home.atRoot ["default-dark.yaml"] := by
    decide +kernel
  refine ⟨hperm, hnames, _, hmem, rfl, ?_⟩
  refine ((list_agrees_iff _ _ hperm hnames).2.2.2.2.2 _ hmem).mpr fun _ =>
    ⟨by decide, by decide +kernel, fun h => ?_⟩
  exact absurd h (by decide +kernel)

end Theme
end LineTint
