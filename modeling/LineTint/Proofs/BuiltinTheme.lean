import LineTint.Proofs.Success
import LineTint.Theme.Library

namespace LineTint

theorem Yaml.readText_ofList {α : Type} (cs : List Char) (read : Source → Node → ReadM α) :
    readText (String.ofList cs) read = readDocument (.ofChars cs) read := by
  unfold readText Document.ofText
  rw [String.toList_ofList]

namespace Theme

def ofChars (cs : List Char) : Option Theme :=
  (Yaml.readDocument (.ofChars cs) ThemeData.read).toOption.bind fun d => (ofData d).toOption

theorem toOption_ofYaml_ofList (cs : List Char) : (ofYaml (String.ofList cs)).toOption = ofChars cs := by
  have hdata : ThemeData.ofYaml (String.ofList cs) = Yaml.readDocument (.ofChars cs) ThemeData.read :=
    Yaml.readText_ofList cs ThemeData.read
  unfold ofYaml ofChars
  rw [hdata]
  cases Yaml.readDocument (.ofChars cs) ThemeData.read with
  | error cause => rfl
  | ok d => rfl

theorem exists_of_lines {lines : List String} {α : Type} {f : Theme → α} {a : α}
    (h : (ofChars (characters lines)).map f = some a) : ∃ t, ofYaml (ofLines lines) = .ok t ∧ f t = a := by
  obtain ⟨t, ht, ha⟩ := Option.map_eq_some_iff.mp h
  rw [← toOption_ofYaml_ofList] at ht
  exact ⟨t, toOption_eq_some_iff.mp ht, ha⟩

theorem exists_defaultDark : ∃ t, ofYaml (ofLines defaultDark) = .ok t ∧
    (t.name, t.policy "keyword") = ("Default Dark", { color := some ⟨0xCC, 0x78, 0x32, 0xFF⟩ }) :=
  exists_of_lines (by decide +kernel)

theorem exists_githubLight : ∃ t, ofYaml (ofLines githubLight) = .ok t ∧ t.name = "GitHub Light" :=
  exists_of_lines (by decide +kernel)

theorem builtin?_defaultDark : builtin? "default-dark" = some (ofLines defaultDark) := rfl

theorem builtin?_githubLight : builtin? "github-light" = some (ofLines githubLight) := rfl

/-- A built-in theme can always be read. -/
theorem exists_of_mem_builtin : ∀ entry ∈ builtin, ∃ t, ofYaml entry.2 = .ok t := by
  rw [builtin, List.forall_mem_cons, List.forall_mem_singleton]
  obtain ⟨dark, hdark, -⟩ := exists_defaultDark
  obtain ⟨light, hlight, -⟩ := exists_githubLight
  exact ⟨⟨dark, hdark⟩, ⟨light, hlight⟩⟩

variable {fs : FileSystem} {home : Home} {id text : String} {t : Theme}

theorem load_builtin (hfile : fs.contains (home.theme id) = false) (htext : builtin? id = some text)
    (ht : ofYaml text = .ok t) : load fs home id = .ok t := by
  rw [load, hfile, if_neg Bool.false_ne_true, ofId, htext]
  exact mapError_eq_ok_iff.mpr ht

end Theme
end LineTint
