import LineTint.Config
import LineTint.Proofs.CharBytes
import LineTint.Proofs.Entry
import LineTint.Proofs.PathSteps

namespace LineTint

namespace Text

variable {c : Char} {cs : List Char}

theorem getLast?_encode_eq_ascii_iff (hc : c.toNat < 128) :
    (encode cs).getLast? = some (UInt8.ofNat c.toNat) ↔ cs.getLast? = some c := by
  rcases List.eq_nil_or_concat' cs with rfl | ⟨front, d, rfl⟩
  · exact iff_of_false nofun nofun
  rw [encode_concat, List.getLast?_concat, List.getLast?_append_of_ne_nil _ String.utf8EncodeChar_ne_nil]
  constructor
  · intro h
    rw [eq_of_ascii_mem hc (List.mem_of_getLast? h)]
  · rintro ⟨⟩
    rw [encodeChar_ascii hc, List.getLast?_singleton]

theorem getElem?_before {α : Type} {xs ys : List α} (h : xs ≠ []) :
    (xs ++ ys)[(xs ++ ys).length - ys.length - 1]? = xs.getLast? := by
  have hpos := List.length_pos_iff.mpr h
  rw [List.length_append, Nat.add_sub_cancel, List.getElem?_append_left (by omega), List.getLast?_eq_getElem?]

end Text

namespace FilePath

open Text

variable {p : FilePath} {name ending : String}

/-- The name of the file goes on with the ending behind a dot. -/
def Ends (p : FilePath) (ending : String) : Prop := ∃ stem, p.fileName? = some (stem ++ "." ++ ending)

theorem exists_byte_before (h : (bytes ending).length < (bytes name).length) :
    (bytes ending).length + 1 ≤ (bytes name).length ∧
      ∃ b, (bytes name)[(bytes name).length - (bytes ending).length - 1]? = some b :=
  ⟨h, _, List.getElem?_eq_getElem (by omega)⟩

theorem hasEnding_eq : hasEnding name ending = true ↔ (bytes ending).length < (bytes name).length ∧
    name.endsWith ending = true ∧
    (bytes name)[(bytes name).length - (bytes ending).length - 1]? = some '.'.toUInt8 := by
  unfold hasEnding
  dsimp only
  split
  next h =>
    rw [Bool.and_eq_true, beq_iff_eq, List.getElem?_eq_getElem (by omega), Option.some.injEq, and_iff_right h]
  next h => exact iff_of_false Bool.false_ne_true fun hall => h hall.1

theorem bytes_eq_append {front : List Char} (h : name.toList = front ++ ending.toList) :
    bytes name = encode front ++ bytes ending := by
  rw [bytes, h, encode_append, bytes]

theorem hasEnding_iff : hasEnding name ending = true ↔ ∃ stem, name = stem ++ "." ++ ending := by
  rw [hasEnding_eq, endsWith_iff]
  constructor
  · rintro ⟨hlt, ⟨front, hname⟩, hdot⟩
    have hbytes := bytes_eq_append hname
    have hfront : encode front ≠ [] := by
      intro hnil
      rw [hbytes, hnil, List.nil_append] at hlt
      exact Nat.lt_irrefl _ hlt
    rw [hbytes, getElem?_before hfront] at hdot
    obtain ⟨stem, rfl⟩ := List.getLast?_eq_some_iff.mp ((getLast?_encode_eq_ascii_iff (by decide)).mp hdot)
    refine ⟨String.ofList stem, String.toList_inj.mp ?_⟩
    rw [hname, String.toList_append, String.toList_append, String.toList_ofList]
    rfl
  · rintro ⟨stem, rfl⟩
    have hname : (stem ++ "." ++ ending).toList = (stem.toList ++ ['.']) ++ ending.toList := by
      rw [String.toList_append, String.toList_append]
      rfl
    have hbytes := bytes_eq_append hname
    have hfront : encode (stem.toList ++ ['.']) ≠ [] := mt encode_eq_nil (by simp)
    refine ⟨?_, ⟨_, hname⟩, ?_⟩
    · rw [hbytes, List.length_append]
      exact Nat.lt_add_of_pos_left (List.length_pos_iff.mpr hfront)
    · rw [hbytes, getElem?_before hfront]
      exact (getLast?_encode_eq_ascii_iff (by decide)).mpr List.getLast?_concat

theorem ends_iff : p.Ends ending ↔ ∃ name, p.fileName? = some name ∧ hasEnding name ending = true := by
  constructor
  · rintro ⟨stem, hname⟩
    exact ⟨_, hname, hasEnding_iff.mpr ⟨stem, rfl⟩⟩
  · rintro ⟨name, hname, hending⟩
    obtain ⟨stem, rfl⟩ := hasEnding_iff.mp hending
    exact ⟨stem, hname⟩

theorem Ends.eq_of_size {ending' : String} (h : p.Ends ending) (h' : p.Ends ending')
    (hsize : ending.utf8ByteSize = ending'.utf8ByteSize) : ending = ending' := by
  obtain ⟨stem, hname⟩ := h
  obtain ⟨stem', hname'⟩ := h'
  have heq := congrArg String.toList (Option.some.inj (hname.symm.trans hname'))
  rw [String.toList_append, @String.toList_append _ ending'] at heq
  rw [utf8ByteSize_eq, utf8ByteSize_eq] at hsize
  have hlen := congrArg byteLength heq
  rw [byteLength_append, byteLength_append, hsize, Nat.add_right_cancel_iff] at hlen
  exact String.toList_inj.mp (append_inj_of_byteLength heq hlen).2

end FilePath

namespace Config

variable {c c' : Config} {p : FilePath} {key key' text : String}

section longest?

variable {entry : String × String} {l : List (String × String)}

theorem longest?_eq_none_iff : longest? l = none ↔ l = [] := by
  cases l with
  | nil => simp [longest?]
  | cons entry l =>
      rw [longest?]
      split
      · split <;> simp
      · simp

theorem longest?_spec (h : longest? l = some entry) :
    entry ∈ l ∧ ∀ e ∈ l, e.1.utf8ByteSize ≤ entry.1.utf8ByteSize := by
  induction l generalizing entry with
  | nil => cases h
  | cons first l ih =>
      rw [longest?] at h
      rw [List.forall_mem_cons]
      split at h
      next best hbest =>
        obtain ⟨hmem, hle⟩ := ih hbest
        split at h
        next hlt =>
          obtain rfl := Option.some.inj h
          exact ⟨List.mem_cons_self, Nat.le_refl _, fun e he => Nat.le_trans (hle e he) (Nat.le_of_lt hlt)⟩
        next hge =>
          obtain rfl := Option.some.inj h
          exact ⟨List.mem_cons_of_mem _ hmem, Nat.le_of_not_lt hge, hle⟩
      next hnone =>
        obtain rfl := Option.some.inj h
        obtain rfl := longest?_eq_none_iff.mp hnone
        exact ⟨List.mem_cons_self, Nat.le_refl _, nofun⟩

end longest?

/-- The longest of the configured endings that the name of a file has. -/
structure Longest (c : Config) (p : FilePath) (key : String) : Prop where
  mem : key ∈ c.extensions.keys
  ends : p.Ends key
  longest : ∀ k ∈ c.extensions.keys, p.Ends k → k.utf8ByteSize ≤ key.utf8ByteSize

theorem Longest.unique (h : c.Longest p key) (h' : c.Longest p key') : key = key' :=
  h.ends.eq_of_size h'.ends
    (Nat.le_antisymm (h'.longest key h.mem h.ends) (h.longest key' h'.mem h'.ends))

/-- The entry whose language is looked up. -/
def chosen? (c : Config) (p : FilePath) : Option (String × String) :=
  p.fileName?.bind fun name =>
    longest? (c.extensions.entries.filter fun (ending, _) => FilePath.hasEnding name ending)

theorem languageFor_eq (c : Config) (p : FilePath) :
    c.languageFor p = ((c.chosen? p).bind fun e => Language.ofName? e.2).getD (.ofPath p) := by
  unfold languageFor chosen? Language.ofPath FilePath.suffix?
  cases p.fileName? <;> rfl

theorem mem_filter_hasEnding_iff {name : String} {e : String × String} (hname : p.fileName? = some name) :
    e ∈ c.extensions.entries.filter (fun (ending, _) => FilePath.hasEnding name ending) ↔
      c.extensions.get? e.1 = some e.2 ∧ p.Ends e.1 := by
  rw [List.mem_filter, Table.get?_eq_some_iff, FilePath.ends_iff]
  simp [hname]

theorem longest_of_chosen? (h : c.chosen? p = some (key, text)) :
    c.Longest p key ∧ c.extensions.get? key = some text := by
  obtain ⟨name, hname, hlongest⟩ := Option.bind_eq_some_iff.mp h
  obtain ⟨hmem, hle⟩ := longest?_spec hlongest
  obtain ⟨hget, hends⟩ := (mem_filter_hasEnding_iff hname).mp hmem
  refine ⟨⟨Table.mem_keys_iff.mpr ⟨text, hget⟩, hends, fun k hk hkends => ?_⟩, hget⟩
  obtain ⟨other, hother⟩ := Table.mem_keys_iff.mp hk
  exact hle (k, other) ((mem_filter_hasEnding_iff hname).mpr ⟨hother, hkends⟩)

theorem chosen?_eq_none_iff : c.chosen? p = none ↔ ∀ key ∈ c.extensions.keys, ¬ p.Ends key := by
  constructor
  · intro h key hkey hends
    obtain ⟨text, hget⟩ := Table.mem_keys_iff.mp hkey
    obtain ⟨name, hname, -⟩ := FilePath.ends_iff.mp hends
    have hnil := longest?_eq_none_iff.mp (Option.bind_eq_none_iff.mp h name hname)
    have hmem := (mem_filter_hasEnding_iff (e := (key, text)) hname).mpr ⟨hget, hends⟩
    exact absurd (hnil ▸ hmem) List.not_mem_nil
  · intro hall
    refine Option.eq_none_iff_forall_ne_some.mpr fun e he => ?_
    have hlongest := (longest_of_chosen? he).1
    exact hall e.1 hlongest.mem hlongest.ends

theorem exists_longest (hkey : key ∈ c.extensions.keys) (hends : p.Ends key) : ∃ key, c.Longest p key := by
  cases h : c.chosen? p with
  | none => exact absurd hends (chosen?_eq_none_iff.mp h key hkey)
  | some e => exact ⟨e.1, (longest_of_chosen? h).1⟩

theorem chosen?_eq_some_iff :
    c.chosen? p = some (key, text) ↔ c.Longest p key ∧ c.extensions.get? key = some text := by
  refine ⟨longest_of_chosen?, fun ⟨hkey, hget⟩ => ?_⟩
  cases h : c.chosen? p with
  | none => exact absurd hkey.ends (chosen?_eq_none_iff.mp h key hkey.mem)
  | some e =>
      obtain ⟨hkey', hget'⟩ := longest_of_chosen? h
      obtain rfl := hkey.unique hkey'
      exact congrArg some (Prod.ext rfl (Option.some.inj (hget'.symm.trans hget)))

theorem chosen?_congr (h : ∀ key, c'.extensions.get? key = c.extensions.get? key) :
    c'.chosen? p = c.chosen? p := by
  have hkeys (key : String) : key ∈ c'.extensions.keys ↔ key ∈ c.extensions.keys := by
    rw [Table.mem_keys_iff, Table.mem_keys_iff, h]
  have hlongest (key : String) : c'.Longest p key ↔ c.Longest p key :=
    ⟨fun hkey => ⟨(hkeys key).mp hkey.mem, hkey.ends, fun k hk => hkey.longest k ((hkeys k).mpr hk)⟩,
      fun hkey => ⟨(hkeys key).mpr hkey.mem, hkey.ends, fun k hk => hkey.longest k ((hkeys k).mp hk)⟩⟩
  refine Option.ext fun ⟨key, text⟩ => ?_
  rw [chosen?_eq_some_iff, chosen?_eq_some_iff, hlongest, h]

theorem languageFor_of_longest (hkey : c.Longest p key) (hget : c.extensions.get? key = some text) :
    c.languageFor p = (Language.ofName? text).getD (.ofPath p) := by
  rw [languageFor_eq, chosen?_eq_some_iff.mpr ⟨hkey, hget⟩, Option.bind_some]

theorem languageFor_of_forall_not_ends (h : ∀ key ∈ c.extensions.keys, ¬ p.Ends key) :
    c.languageFor p = .ofPath p := by
  rw [languageFor_eq, chosen?_eq_none_iff.mpr h, Option.bind_none, Option.getD_none]

theorem languageFor_of_isEmpty (h : c.extensions.isEmpty = true) : c.languageFor p = .ofPath p := by
  refine languageFor_of_forall_not_ends fun key hkey => ?_
  rw [Table.keys, List.isEmpty_iff.mp h] at hkey
  exact absurd hkey List.not_mem_nil

/-- Whatever the order of the configured endings, the longest one that stands behind a dot at the end of a
file's name decides, and there is but one. Where its language is unknown, shorter ones are not asked: the
suffix of the path decides, as it does where no ending is found. The byte before an ending is looked at only
where there is one. -/
theorem languageFor_by_longest (c : Config) (p : FilePath) :
    (∀ c' : Config, c'.extensions.entries.Perm c.extensions.entries → c'.languageFor p = c.languageFor p) ∧
    (∀ key key', c.Longest p key → c.Longest p key' → key = key') ∧
    ((∃ key ∈ c.extensions.keys, p.Ends key) → ∃ key text, c.Longest p key ∧ c.extensions.get? key = some text) ∧
    (∀ key text language, c.Longest p key → c.extensions.get? key = some text →
      Language.ofName? text = some language → c.languageFor p = language) ∧
    (∀ key text, c.Longest p key → c.extensions.get? key = some text →
      Language.ofName? text = none → c.languageFor p = .ofPath p) ∧
    ((∀ key ∈ c.extensions.keys, ¬ p.Ends key) → c.languageFor p = .ofPath p) ∧
    (c.extensions.isEmpty = true → c.languageFor p = .ofPath p) ∧
    (∀ key, p.Ends key ↔ ∃ name, p.fileName? = some name ∧
      (Text.bytes key).length < (Text.bytes name).length ∧ name.endsWith key = true ∧
      (Text.bytes name)[(Text.bytes name).length - (Text.bytes key).length - 1]? = some '.'.toUInt8) ∧
    ∀ name key, (Text.bytes key).length < (Text.bytes name).length →
      (Text.bytes key).length + 1 ≤ (Text.bytes name).length ∧
      ∃ b, (Text.bytes name)[(Text.bytes name).length - (Text.bytes key).length - 1]? = some b := by
  refine ⟨fun c' hperm => ?_, fun _ _ h h' => h.unique h', ?_, ?_, ?_, languageFor_of_forall_not_ends,
    languageFor_of_isEmpty, fun _ => ?_, fun _ _ => FilePath.exists_byte_before⟩
  · have hget (key : String) : c'.extensions.get? key = c.extensions.get? key := by
      refine Option.ext fun text => ?_
      rw [Table.get?_eq_some_iff, Table.get?_eq_some_iff, hperm.mem_iff]
    rw [languageFor_eq, languageFor_eq, chosen?_congr hget]
  · rintro ⟨key, hkey, hends⟩
    obtain ⟨key, hlongest⟩ := exists_longest hkey hends
    obtain ⟨text, hget⟩ := Table.mem_keys_iff.mp hlongest.mem
    exact ⟨key, text, hlongest, hget⟩
  · intro key text language hkey hget hlanguage
    rw [languageFor_of_longest hkey hget, hlanguage, Option.getD_some]
  · intro key text hkey hget hlanguage
    rw [languageFor_of_longest hkey hget, hlanguage, Option.getD_none]
  · rw [FilePath.ends_iff]
    exact exists_congr fun _ => and_congr_right' FilePath.hasEnding_eq

def templates : Config where
  extensions := .ofList [("in", "ini"), ("rs.in", "rust")]

theorem languageFor_by_longest_configured :
    templates.Longest "a/b.rs.in" "rs.in" ∧ templates.extensions.get? "rs.in" = some "rust" ∧
      Language.ofName? "rust" = some .rust ∧ templates.languageFor "a/b.rs.in" = .rust := by
  have hsize : ∀ key ∈ templates.extensions.keys, key.utf8ByteSize ≤ "rs.in".utf8ByteSize := by decide +kernel
  have hkey : templates.Longest "a/b.rs.in" "rs.in" :=
    ⟨by decide +kernel, ⟨"b", by decide +kernel⟩, fun key hmem _ => hsize key hmem⟩
  have hget : templates.extensions.get? "rs.in" = some "rust" := by decide +kernel
  have hname : Language.ofName? "rust" = some .rust := by decide +kernel
  exact ⟨hkey, hget, hname, (languageFor_by_longest templates "a/b.rs.in").2.2.2.1 _ _ _ hkey hget hname⟩

example : ({ extensions := .ofList [("in", "ini"), ("rs.in", "cobol")] } : Config).languageFor "a/b.rs.in" = .plainText := by
  cbv

end Config
end LineTint
