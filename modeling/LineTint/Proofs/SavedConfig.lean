import LineTint.Proofs.CharDecoding
import LineTint.Proofs.MadeDirectories
import LineTint.Proofs.ProgramRun
import Mathlib.Data.List.Forall2

namespace LineTint

namespace Yaml

inductive Written where
  | text (s : String)
  | truth (b : Bool)
  | table (entries : List (String × String))

def Written.print (name : String) : Written → List Char
  | .text s => Print.entry 0 name s
  | .truth b => name.toList ++ ": ".toList ++ (if b then "true" else "false").toList ++ ['\n']
  | .table entries => name.toList ++ ":\n".toList ++ entries.flatMap fun (key, value) => Print.entry 2 key value

def print (fields : List (String × Written)) : String :=
  String.ofList (fields.flatMap fun (name, value) => value.print name)

namespace Node

def text? : Node → Option String
  | .scalar _ _ text => some text
  | _ => none

def truth? : Node → Option Bool
  | .scalar _ .plain text => Atom.bool? text
  | _ => none

def pairs? : Node → Option (List (Node × Node))
  | .mapping _ nodes => some nodes
  | _ => none

def Shows (n : Node) : Written → Prop
  | .text s => n.text? = some s
  | .truth b => n.truth? = some b
  | .table entries => ∃ nodes ∈ n.pairs?,
      List.Forall₂ (fun node entry => node.1.text? = some entry.1 ∧ node.2.text? = some entry.2) nodes entries

instance (n : Node) : (w : Written) → Decidable (n.Shows w)
  | .text s => inferInstanceAs (Decidable (n.text? = some s))
  | .truth b => inferInstanceAs (Decidable (n.truth? = some b))
  | .table entries => inferInstanceAs (Decidable (∃ nodes ∈ n.pairs?,
      List.Forall₂ (fun node entry => node.1.text? = some entry.1 ∧ node.2.text? = some entry.2) nodes entries))

end Node

/-- What is written of these fields is read as a map with the same keys and values. -/
def ReadsBack (fields : List (String × Written)) : Prop :=
  (Document.ofText (print fields)).failure = none ∧ (Document.ofText (print fields)).more = false ∧
    ∃ root ∈ (Document.ofText (print fields)).root, ∃ nodes ∈ root.pairs?,
      List.Forall₂ (fun node field => node.1.text? = some field.1 ∧ node.2.Shows field.2) nodes fields

instance (fields : List (String × Written)) : Decidable (ReadsBack fields) :=
  inferInstanceAs (Decidable (_ ∧ _ ∧ _))

section

variable {s : Source} {path : Path} {n : Node}

theorem readString_eq {text : String} (h : n.text? = some text) (expected : String) :
    readString s expected path n = pure text := by
  cases n with
  | scalar head form text' =>
      obtain rfl := Option.some.inj h
      rfl
  | _ => cases h

theorem readBool_eq {b : Bool} (h : n.truth? = some b) : readBool s path n = pure b := by
  unfold Node.truth? at h
  split at h
  next head text => simp [readBool, Source.follow, isLoose, h]
  next => cases h

theorem readEntries_eq {nodes : List (Node × Node)} (h : nodes ∈ n.pairs?) (expected : String) :
    readEntries s expected path n = pure (n.head.mark, nodes) := by
  cases n with
  | mapping head nodes' =>
      obtain rfl := Option.some.inj h
      rfl
  | _ => cases h

end

end Yaml

namespace Table

variable {κ α : Type} [DecidableEq κ]

theorem get?_foldl_insert (entries : List (κ × α)) (h : (entries.map (·.1)).Nodup) (t : Table κ α) (k : κ) :
    (entries.foldl (fun t (l, a) => t.insert l a) t).get? k =
      ((entries.find? (·.1 = k)).map (·.2)).or (t.get? k) := by
  induction entries generalizing t with
  | nil => rfl
  | cons entry entries ih =>
      obtain ⟨l, a⟩ := entry
      obtain ⟨hl, hrest⟩ := List.nodup_cons.mp h
      rw [List.foldl_cons, ih hrest, get?_insert, List.find?_cons]
      by_cases hlk : l = k
      · subst hlk
        have hnone : entries.find? (·.1 = l) = none := by
          refine List.find?_eq_none.mpr fun entry hentry heq => hl ?_
          exact List.mem_map.mpr ⟨entry, hentry, by simpa using heq⟩
        simp [hnone]
      · simp [hlk]

theorem get?_ofList_entries (t : Table κ α) (k : κ) : (ofList t.entries).get? k = t.get? k := by
  rw [ofList, get?_foldl_insert t.entries t.nodup, get?_empty, Option.or_none]
  rfl

end Table

namespace Config

/-- Equality up to the order of the entries in the table. -/
structure Same (c d : Config) : Prop where
  theme : c.theme = d.theme
  userQueries : c.userQueries = d.userQueries
  extensions : ∀ ending, c.extensions.get? ending = d.extensions.get? ending

def fields (c : Config) : List (String × Yaml.Written) :=
  [("theme", .text c.theme), ("user_queries", .truth c.userQueries)] ++
    if c.extensions.isEmpty then [] else [("extensions", .table c.extensions.entries)]

theorem toYaml_eq_print (c : Config) : c.toYaml = Yaml.print c.fields := by
  unfold toYaml Yaml.print fields
  split
  · simp [Yaml.Written.print]
  · simp [Yaml.Written.print]

section Reading

open Yaml

variable {s : Source} {path : Path}

theorem foldlM_readString_eq {nodes : List (Node × Node)} {entries : List (String × String)}
    (h : List.Forall₂ (fun node entry => node.1.text? = some entry.1 ∧ node.2.text? = some entry.2) nodes entries)
    (t : Table String String) :
    nodes.foldlM (fun table (k, v) => do
      let key ← readString s "a string" path k
      return table.insert key (← readString s "a string" (path.under k) v)) t =
      (pure (entries.foldl (fun t (k, v) => t.insert k v) t) : ReadM (Table String String)) := by
  induction h generalizing t with
  | nil => rfl
  | @cons node entry nodes entries hnode hrest ih =>
      obtain ⟨k, v⟩ := node
      obtain ⟨key, value⟩ := entry
      obtain ⟨hk, hv⟩ := hnode
      simp only [List.foldlM_cons, List.foldl_cons, readString_eq hk, readString_eq hv, pure_bind, ih]

theorem readTable_eq {n : Node} {entries : List (String × String)} (h : n.Shows (.table entries)) :
    readTable s path n = pure (.ofList entries) := by
  obtain ⟨nodes, hpairs, hnodes⟩ := h
  rw [readTable, readEntries_eq hpairs, pure_bind]
  exact foldlM_readString_eq hnodes .empty

/-- The defaults stand in for just what was left out. -/
theorem read_eq {root : Node} {nodes : List (Node × Node)} {c : Config} (hpairs : nodes ∈ root.pairs?)
    (h : List.Forall₂ (fun node field => node.1.text? = some field.1 ∧ node.2.Shows field.2) nodes c.fields) :
    ∃ d, c.Same d ∧ ∀ s, read s root = pure d := by
  unfold fields at h
  rw [List.cons_append, List.forall₂_cons_right_iff] at h
  obtain ⟨⟨k₁, v₁⟩, nodes, ⟨hk₁, hv₁⟩, h, rfl⟩ := h
  rw [List.cons_append, List.forall₂_cons_right_iff] at h
  obtain ⟨⟨k₂, v₂⟩, nodes, ⟨hk₂, hv₂⟩, h, rfl⟩ := h
  have hv₁ : v₁.text? = some c.theme := hv₁
  cases hempty : c.extensions.isEmpty with
  | true =>
      simp only [hempty, if_true, List.nil_append, List.forall₂_nil_right_iff] at h
      subst h
      refine ⟨{ c with extensions := .empty }, ⟨rfl, rfl, fun ending => ?_⟩, fun s => ?_⟩
      · rw [Table.isEmpty, List.isEmpty_iff] at hempty
        rw [Table.get?, hempty]
        rfl
      · simp [read, readEntries_eq hpairs, readString_eq hk₁, readString_eq hv₁, readString_eq hk₂,
          readBool_eq hv₂]
  | false =>
      simp only [hempty, Bool.false_eq_true, if_false, List.nil_append] at h
      rw [List.forall₂_cons_right_iff] at h
      obtain ⟨⟨k₃, v₃⟩, nodes, ⟨hk₃, hv₃⟩, h, rfl⟩ := h
      obtain rfl := List.forall₂_nil_right_iff.mp h
      refine ⟨{ c with extensions := .ofList c.extensions.entries }, ⟨rfl, rfl, fun ending => ?_⟩, fun s => ?_⟩
      · exact (Table.get?_ofList_entries c.extensions ending).symm
      · simp [read, readEntries_eq hpairs, readString_eq hk₁, readString_eq hv₁, readString_eq hk₂,
          readBool_eq hv₂, readString_eq hk₃, readTable_eq hv₃]

theorem readText_eq_ok {α : Type} {text : String} {read : Source → Node → ReadM α} {root : Node} {a : α}
    (hfailure : (Document.ofText text).failure = none) (hmore : (Document.ofText text).more = false)
    (hroot : (Document.ofText text).root = some root) (hread : ∀ s, read s root = pure a) :
    readText text read = .ok a := by
  unfold readText readDocument
  generalize Document.ofText text = d at hfailure hmore hroot
  obtain ⟨root', stop, failure, more⟩ := d
  subst hfailure hmore hroot
  simp only [Source.ofDocument, Option.getD_some, hread]
  rfl

theorem ofYaml_toYaml {c : Config} (h : ReadsBack c.fields) : ∃ d, c.Same d ∧ ofYaml c.toYaml = .ok d := by
  obtain ⟨hfailure, hmore, root, hroot, nodes, hpairs, hnodes⟩ := h
  obtain ⟨d, hsame, hread⟩ := read_eq hpairs hnodes
  rw [toYaml_eq_print]
  exact ⟨d, hsame, readText_eq_ok hfailure hmore hroot hread⟩

end Reading

variable {c : Config} {fs fs' : FileSystem} {p : FilePath}

theorem save_eq_ok_iff : c.save fs p = (fs', .ok ()) ↔
    ∃ fs₁, (p.parent?.map fs.makeDirectories).getD (fs, .ok ()) = (fs₁, .ok ()) ∧
      fs₁.write p (Text.bytes c.toYaml) = .ok fs' := by
  unfold save
  rcases (p.parent?.map fs.makeDirectories).getD (fs, .ok ()) with ⟨fs₁, cause | done⟩
  · simp
  · cases hwrite : fs₁.write p (Text.bytes c.toYaml) with
    | error cause => simp [hwrite]
    | ok fs₂ => simp [hwrite]

/-- What is missing above a path is made, so that saving fails only where no file could ever be. -/
theorem save_succeeds_iff (c : Config) (fs : FileSystem) (p : FilePath) :
    (∃ fs', c.save fs p = (fs', .ok ())) ↔ ∃ here before name, fs.Writable p here before name := by
  simp only [save_eq_ok_iff]
  constructor
  · rintro ⟨fs', fs₁, hmake, hwrite⟩
    exact FileSystem.writable_of_write hmake hwrite
  · rintro ⟨here, before, name, h⟩
    obtain ⟨q, fs₁, fs', hparent, hmade, hwrite⟩ := h.exists_write (Text.bytes c.toYaml)
    exact ⟨fs', fs₁, by rw [hparent]; exact hmade, hwrite⟩

theorem readText_of_save (h : c.save fs p = (fs', .ok ())) : fs'.readText p = .ok c.toYaml := by
  obtain ⟨fs₁, -, hwrite⟩ := save_eq_ok_iff.mp h
  refine bind_eq_ok_iff.mpr ⟨_, FileSystem.read_write hwrite, ?_⟩
  rw [Text.decode?_bytes]
  rfl

theorem load_save (h : c.save fs p = (fs', .ok ())) (hreads : Yaml.ReadsBack c.fields) : (load fs' p).Same c := by
  obtain ⟨d, hsame, hd⟩ := ofYaml_toYaml hreads
  rw [load, readText_of_save h]
  simp only [hd]
  exact ⟨hsame.theme.symm, hsame.userQueries.symm, fun ending => (hsame.extensions ending).symm⟩

theorem load_congr (h : ∀ content, fs'.read p = .ok content ↔ fs.read p = .ok content) : load fs' p = load fs p := by
  unfold load FileSystem.readText
  cases hread : fs.read p with
  | ok content => rw [(h content).mpr hread]
  | error cause =>
      cases hread' : fs'.read p with
      | ok content => cases hread.symm.trans ((h content).mp hread')
      | error cause' => rfl

end Config

namespace Home

variable {home : Home} {fs fs' : FileSystem}

/-- The user's directory is there, or else its path does not go up on its way. -/
def IsSteady (home : Home) (fs : FileSystem) : Prop :=
  (∃ here, fs.locate home.directory = .ok here) ∨ ".." ∉ FilePath.steps home.directory

theorem makeLogs_keeps (home : Home) (fs : FileSystem) :
    fs.Grows (home.makeLogs fs).1 ∧ fs.SameFiles (home.makeLogs fs).1 := by
  have hmake := fs.makeDirectories_keeps home.logs
  unfold makeLogs
  split
  next fs₁ hlogs => rwa [hlogs] at hmake
  next fs₁ cause hlogs => rwa [hlogs] at hmake

theorem read_config_makeLogs (h : home.IsSteady fs) (content : List UInt8) :
    (home.makeLogs fs).1.read home.config = .ok content ↔ fs.read home.config = .ok content := by
  obtain ⟨hgrows, hfiles⟩ := home.makeLogs_keeps fs
  rw [home.config_eq]
  exact FileSystem.read_child_of_grows hgrows hfiles home.directory_isOpen (by decide) (by decide) (by decide) h

theorem load_config_makeLogs (h : home.IsSteady fs) :
    Config.load (home.makeLogs fs).1 home.config = Config.load fs home.config :=
  Config.load_congr (home.read_config_makeLogs h)

end Home

namespace Program

variable {Tree Query : Type} {e : Engine Tree Query} {home : Home} {fs fs' : FileSystem} {texts : List String}
  {id : String}

structure Saves (home : Home) (fs : FileSystem) (texts : List String) (id : String) : Prop where
  asked : ∃ a, Arguments.parse texts = .ok (.run a) ∧ a.listThemes = false ∧ a.saveTheme = true ∧ a.theme = some id
  loads : ∃ t, Theme.load (home.makeLogs fs).1 home id = .ok t

theorem run_of_saves (h : Saves home fs texts id)
    (hsave : { configOf home fs with theme := id }.save (home.makeLogs fs).1 home.config = (fs', .ok ())) :
    (run e home fs texts).1 = fs' := by
  obtain ⟨⟨a, hparse, hlist, hasked, hid⟩, t, hload⟩ := h
  have hchoose := chooseTheme_of_save hload hid hasked hsave
  simp only [run, hparse, perform_fst, hlist, Bool.false_eq_true, if_false, hchoose]

/-- A run that does not save a theme makes the directory of the logs, or nothing. -/
theorem run_of_not_saves (h : ¬ ∃ id, Saves home fs texts id) :
    (run e home fs texts).1 = fs ∨ (run e home fs texts).1 = (home.makeLogs fs).1 := by
  unfold run
  split
  next a hparse =>
    right
    rw [perform_fst]
    cases hlist : a.listThemes with
    | true => rfl
    | false =>
        rw [if_neg Bool.false_ne_true]
        refine chooseTheme_fst_of_not_saved fun hasked t hload => ?_
        obtain ⟨id, hid⟩ := theme_of_parse hparse hasked
        rw [hid] at hload
        exact h ⟨id, ⟨a, hparse, hlist, hasked, hid⟩, t, hload⟩
  next => exact Or.inl rfl
  next => exact Or.inl rfl
  next => exact Or.inl rfl

def noEngine : Engine Unit Unit where
  compile _ := none
  parse _ _ _ := ()
  differences _ _ _ := []
  captures _ _ _ _ := []

def oneTheme : FileTree := .directory [("mine.yaml", .file (Text.bytes "version: 1\nname: Mine\nsyntax: \x7b\x7d\n"))]

def configured : FileSystem where
  root := .directory [(".config", .directory [("token-editor", .directory [("themes", oneTheme), ("highlight.yaml",
    .file (Text.bytes "extensions: \x7brs.in: rust\x7d\nunknown: 1\nuser_queries: false\n"))])])]

def saveAndFail : List String := ["--theme", "mine", "--save-theme", "--lines", "0", "a.rs"]

def ledHome : Home where
  configHome := some "/a/b/../c"
  home := "/"

def led : FileSystem where
  root := .directory [("a", .directory [("c", .directory [("token-editor", .directory [("themes", oneTheme),
    ("highlight.yaml", .file (Text.bytes "user_queries: false\n"))])])])]

end Program
end LineTint
