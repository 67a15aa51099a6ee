import LineTint.Proofs.Entry
import LineTint.Proofs.Success
import LineTint.Theme.Basic
import Mathlib.Data.List.Basic

namespace LineTint

namespace StyleData

def colorText? : StyleData → Option String
  | .color hex => some hex
  | .full hex? _ _ => hex?

def font : StyleData → FontStyle
  | .color _ => {}
  | .full _ bold italic => { bold, italic }

structure Resolves (s : StyleData) (style : Style) : Prop where
  font : style.font = s.font
  uncolored : s.colorText? = none → style.color = none
  colored : ∀ hex, s.colorText? = some hex → ∃ c, Color.ofHex hex = .ok c ∧ style.color = some c

theorem toStyle_eq (s : StyleData) :
    s.toStyle = match s.colorText? with
      | none => .ok { font := s.font }
      | some hex => (Color.ofHex hex).map fun c => { color := some c, font := s.font } := by
  cases s with
  | color hex => rfl
  | full hex? bold italic => cases hex? <;> rfl

theorem resolves_of_toStyle {s : StyleData} {style : Style} (h : s.toStyle = .ok style) : s.Resolves style := by
  rw [toStyle_eq] at h
  split at h
  next hs =>
    obtain rfl := Except.ok.inj h
    exact ⟨rfl, fun _ => rfl, fun _ hhex => (nomatch hs.symm.trans hhex)⟩
  next hex hs =>
    cases hc : Color.ofHex hex with
    | error cause => rw [hc] at h; cases h
    | ok c =>
        rw [hc] at h
        obtain rfl := Except.ok.inj h
        refine ⟨rfl, fun hnone => (nomatch hs.symm.trans hnone), fun hex' hhex => ?_⟩
        obtain rfl := Option.some.inj (hs.symm.trans hhex)
        exact ⟨c, hc, rfl⟩

theorem toStyle_eq_error_iff {s : StyleData} {cause : ColorError} :
    s.toStyle = .error cause ↔ ∃ hex, s.colorText? = some hex ∧ Color.ofHex hex = .error cause := by
  rw [toStyle_eq]
  cases hs : s.colorText? with
  | none => simp
  | some hex => cases hc : Color.ofHex hex <;> simp [Except.map, hc]

end StyleData

namespace Theme

variable {d : ThemeData} {t : Theme} {keys : List String} {tag stem key key' : String} {style : Style}

/-- A tag is under itself, and under a key behind which it goes on with a dot. -/
def Under (tag key : String) : Prop := tag = key ∨ ∃ rest, tag = key ++ "." ++ rest

/-- The longest key that a tag is under. -/
structure Nearest (keys : List String) (tag key : String) : Prop where
  mem : key ∈ keys
  under : Under tag key
  longest : ∀ k ∈ keys, Under tag k → k.length ≤ key.length

theorem Under.length_le (h : Under tag key) : key.length ≤ tag.length := by
  rcases h with rfl | ⟨rest, rfl⟩
  · exact Nat.le_refl _
  · rw [String.length_append, String.length_append]
    omega

theorem Under.isPrefix (h : Under tag key) : key.toList <+: tag.toList := by
  rcases h with rfl | ⟨rest, rfl⟩
  · exact List.prefix_refl _
  · exact ⟨".".toList ++ rest.toList, by simp⟩

theorem Nearest.unique (h : Nearest keys tag key) (h' : Nearest keys tag key') : key = key' := by
  have hlen : key.length = key'.length :=
    Nat.le_antisymm (h'.longest key h.mem h.under) (h.longest key' h'.mem h'.under)
  rw [← String.length_toList, ← String.length_toList] at hlen
  have hfront := List.prefix_of_prefix_length_le h.under.isPrefix h'.under.isPrefix (Nat.le_of_eq hlen)
  exact String.toList_inj.mp (hfront.eq_of_length hlen)

theorem parent?_eq_some_iff :
    parent? tag = some stem ↔ ∃ last, tag = stem ++ "." ++ last ∧ '.' ∉ last.toList := by
  unfold parent?
  rw [Option.map_eq_some_iff]
  constructor
  · rintro ⟨⟨front, last⟩, hcut, rfl⟩
    obtain ⟨htag, hlast⟩ := Text.cutAtDot_eq_some_iff.mp hcut
    refine ⟨String.ofList last, ?_, by rwa [String.toList_ofList]⟩
    rw [← String.toList_inj, htag]
    simp
  · rintro ⟨last, rfl, hlast⟩
    exact ⟨(stem.toList, last.toList), Text.cutAtDot_eq_some_iff.mpr ⟨by simp, hlast⟩, String.ofList_toList⟩

theorem parent?_eq_none_iff : parent? tag = none ↔ '.' ∉ tag.toList := by
  rw [parent?, Option.map_eq_none_iff, Text.cutAtDot_eq_none_iff]

example : parent? "a..b" = some "a." ∧ parent? "a." = some "a" ∧ parent? ".a" = some "" ∧ parent? "" = none := by
  decide

/-- What a tag is under besides itself its parent is under, too. -/
theorem under_iff_of_parent? (h : parent? tag = some stem) : Under tag key ↔ tag = key ∨ Under stem key := by
  obtain ⟨last, rfl, hlast⟩ := parent?_eq_some_iff.mp h
  refine or_congr_right ⟨?_, ?_⟩
  · rintro ⟨rest, heq⟩
    have hcs : stem.toList ++ '.' :: last.toList = key.toList ++ '.' :: rest.toList := by
      simpa using congrArg String.toList heq
    rcases List.append_eq_append_iff.mp hcs with ⟨mid, hkey, hmid⟩ | ⟨mid, hstem, hmid⟩
    -- the dot behind the key is the last one of the tag, or stands in front of it
    · cases mid with
      | nil => exact Or.inl (String.toList_inj.mp (by simpa using hkey.symm))
      | cons d mid =>
          have hmem : '.' ∈ last.toList := by
            rw [(List.cons.inj hmid).2]
            simp
          exact absurd hmem hlast
    · cases mid with
      | nil => exact Or.inl (String.toList_inj.mp (by simpa using hstem))
      | cons d mid =>
          obtain ⟨rfl, -⟩ := List.cons.inj hmid
          exact Or.inr ⟨String.ofList mid, String.toList_inj.mp (by simpa using hstem)⟩
  · rintro (rfl | ⟨rest, rfl⟩)
    · exact ⟨last, rfl⟩
    · exact ⟨rest ++ "." ++ last, by simp [String.append_assoc]⟩

theorem eq_of_under_of_no_parent (h : parent? tag = none) (hunder : Under tag key) : tag = key := by
  rcases hunder with rfl | ⟨rest, rfl⟩
  · rfl
  · exact absurd (by simp) (parent?_eq_none_iff.mp h)

theorem nearest_iff_of_parent? (hnone : tag ∉ keys) (h : parent? tag = some stem) :
    Nearest keys tag key ↔ Nearest keys stem key := by
  have hunder (k : String) (hk : k ∈ keys) : Under tag k ↔ Under stem k := by
    rw [under_iff_of_parent? h, or_iff_right]
    rintro rfl
    exact hnone hk
  constructor
  · intro hn
    exact ⟨hn.mem, (hunder key hn.mem).mp hn.under, fun k hk hu => hn.longest k hk ((hunder k hk).mpr hu)⟩
  · intro hn
    exact ⟨hn.mem, (hunder key hn.mem).mpr hn.under, fun k hk hu => hn.longest k hk ((hunder k hk).mp hu)⟩

theorem nearest_self (h : tag ∈ keys) : Nearest keys tag tag := ⟨h, Or.inl rfl, fun _ _ hu => hu.length_le⟩

theorem not_mem_keys (h : t.styles.get? tag = none) : tag ∉ t.styles.keys := by
  intro hmem
  obtain ⟨a, ha⟩ := Table.mem_keys_iff.mp hmem
  cases h.symm.trans ha

theorem styleFor?_eq_some_iff :
    t.styleFor? tag = some style ↔ ∃ key, Nearest t.styles.keys tag key ∧ t.styles.get? key = some style := by
  -- the loop goes from the tag to its parent; what is nearest stays the same until it is found
  fun_induction styleFor? t tag with
  | case1 tag found hfound =>
      have hself := nearest_self (Table.mem_keys_iff.mpr ⟨found, hfound⟩)
      rw [Option.some.injEq]
      constructor
      · rintro rfl
        exact ⟨tag, hself, hfound⟩
      · rintro ⟨key, hkey, hget⟩
        rw [hkey.unique hself, hfound] at hget
        exact Option.some.inj hget
  | case2 tag hnone stem hparent ih => simp only [ih, nearest_iff_of_parent? (not_mem_keys hnone) hparent]
  | case3 tag hnone hparent =>
      refine iff_of_false nofun ?_
      rintro ⟨key, hkey, -⟩
      exact not_mem_keys hnone (eq_of_under_of_no_parent hparent hkey.under ▸ hkey.mem)

theorem styleFor?_eq_none_iff : t.styleFor? tag = none ↔ ∀ key ∈ t.styles.keys, ¬ Under tag key := by
  fun_induction styleFor? t tag with
  | case1 tag found hfound =>
      refine iff_of_false nofun fun h => ?_
      exact h tag (Table.mem_keys_iff.mpr ⟨found, hfound⟩) (Or.inl rfl)
  | case2 tag hnone stem hparent ih =>
      rw [ih]
      refine forall₂_congr fun key hkey => ?_
      rw [under_iff_of_parent? hparent, not_or, and_iff_right]
      rintro rfl
      exact not_mem_keys hnone hkey
  | case3 tag hnone hparent =>
      refine iff_of_true rfl fun key hkey hunder => ?_
      exact not_mem_keys hnone (eq_of_under_of_no_parent hparent hunder ▸ hkey)

theorem exists_nearest (hmem : key ∈ t.styles.keys) (hunder : Under tag key) :
    ∃ key, Nearest t.styles.keys tag key := by
  cases h : t.styleFor? tag with
  | none => exact absurd hunder (styleFor?_eq_none_iff.mp h key hmem)
  | some style =>
      obtain ⟨key, hkey, -⟩ := styleFor?_eq_some_iff.mp h
      exact ⟨key, hkey⟩

/-- A search for the style of a tag that comes to an end. From a tag without a style it goes on with what
stands in front of the last dot. -/
inductive Search (t : Theme) : String → Option Style → Prop
  | found {tag : String} {style : Style} (h : t.styles.get? tag = some style) : Search t tag (some style)
  | missed {tag : String} (h : t.styles.get? tag = none) (hdot : '.' ∉ tag.toList) : Search t tag none
  | up {stem last : String} {result : Option Style} (h : t.styles.get? (stem ++ "." ++ last) = none)
      (hdot : '.' ∉ last.toList) (next : Search t stem result) : Search t (stem ++ "." ++ last) result

theorem search_styleFor? (t : Theme) (tag : String) : t.Search tag (t.styleFor? tag) := by
  fun_induction styleFor? t tag with
  | case1 tag style hfound => exact .found hfound
  | case2 tag hnone stem hparent ih =>
      obtain ⟨last, rfl, hlast⟩ := parent?_eq_some_iff.mp hparent
      exact .up hnone hlast ih
  | case3 tag hnone hparent => exact .missed hnone (parent?_eq_none_iff.mp hparent)

theorem styleFor?_eq (t : Theme) (tag : String) :
    t.styleFor? tag = (t.styles.get? tag).or ((parent? tag).bind t.styleFor?) := by
  rw [styleFor?]
  cases t.styles.get? tag with
  | some style => rfl
  | none =>
      dsimp only
      split <;> simp [*]

theorem Search.result_eq {result : Option Style} (h : t.Search tag result) : result = t.styleFor? tag := by
  induction h with
  | found h => rw [styleFor?_eq, h, Option.some_or]
  | missed h hdot => rw [styleFor?_eq, h, parent?_eq_none_iff.mpr hdot, Option.none_or, Option.bind_none]
  | up h hdot next ih =>
      rw [styleFor?_eq, h, parent?_eq_some_iff.mpr ⟨_, rfl, hdot⟩, Option.none_or, Option.bind_some, ih]

def readStyle (tag : String) (s : StyleData) : Except ThemeError Style := s.toStyle.mapError (.invalidStyle tag)

theorem ofData_of_version (h : d.version ≠ ThemeData.currentVersion) :
    ofData d = .error (.unsupportedVersion d.version) :=
  if_pos h

theorem ofData_of_current (h : d.version = ThemeData.currentVersion) :
    ofData d = (d.styles.mapM readStyle).map fun styles => { name := d.name, styles } := by
  refine (if_neg (not_not.mpr h)).trans ?_
  unfold readStyle
  cases d.styles.mapM fun tag s => s.toStyle.mapError (ThemeError.invalidStyle tag) with
  | error e => rfl
  | ok styles => rfl

theorem version_of_ofData (h : ofData d = .ok t) : d.version = ThemeData.currentVersion := by
  by_contra hversion
  cases h.symm.trans (ofData_of_version hversion)

theorem mapM_of_ofData (h : ofData d = .ok t) : d.styles.mapM readStyle = .ok t.styles := by
  rw [ofData_of_current (version_of_ofData h)] at h
  cases hstyles : d.styles.mapM readStyle with
  | error e => rw [hstyles] at h; cases h
  | ok styles =>
      rw [hstyles] at h
      obtain rfl := Except.ok.inj h
      rfl

theorem readStyle_eq_ok_iff {s : StyleData} : readStyle tag s = .ok style ↔ s.toStyle = .ok style :=
  mapError_eq_ok_iff

theorem exists_of_readStyle_error {s : StyleData} {e : ThemeError} (h : readStyle tag s = .error e) :
    ∃ hex cause, s.colorText? = some hex ∧ Color.ofHex hex = .error cause ∧ e = .invalidStyle tag cause := by
  unfold readStyle at h
  cases hs : s.toStyle with
  | ok style => rw [hs] at h; cases h
  | error cause =>
      rw [hs] at h
      obtain ⟨hex, hhex, hcause⟩ := StyleData.toStyle_eq_error_iff.mp hs
      exact ⟨hex, cause, hhex, hcause, (Except.error.inj h).symm⟩

theorem exists_of_ofData_error {e : ThemeError} (hversion : d.version = ThemeData.currentVersion)
    (h : ofData d = .error e) : ∃ key s hex cause, d.styles.get? key = some s ∧ s.colorText? = some hex ∧
      Color.ofHex hex = .error cause ∧ e = .invalidStyle key cause := by
  rw [ofData_of_current hversion] at h
  cases hstyles : d.styles.mapM readStyle with
  | ok styles => rw [hstyles] at h; cases h
  | error e' =>
      rw [hstyles] at h
      obtain rfl := Except.error.inj h
      obtain ⟨key, s, hkey, hread⟩ := Table.exists_of_mapM_error hstyles
      obtain ⟨hex, cause, hhex, hcause, he⟩ := exists_of_readStyle_error hread
      exact ⟨key, s, hex, cause, hkey, hhex, hcause, he⟩

theorem keys_of_ofData (h : ofData d = .ok t) : t.styles.keys = d.styles.keys := Table.keys_mapM (mapM_of_ofData h)

theorem exists_of_ofData {s : StyleData} (h : ofData d = .ok t) (hkey : d.styles.get? key = some s) :
    ∃ style, t.styles.get? key = some style ∧ s.Resolves style := by
  obtain ⟨style, hread, hget⟩ := Table.get?_mapM (mapM_of_ofData h) hkey
  exact ⟨style, hget, StyleData.resolves_of_toStyle (readStyle_eq_ok_iff.mp hread)⟩

theorem exists_ofData_ok_iff : (∃ t, ofData d = .ok t) ↔ d.version = ThemeData.currentVersion ∧
    ∀ key s hex, d.styles.get? key = some s → s.colorText? = some hex → ∃ c, Color.ofHex hex = .ok c := by
  constructor
  · rintro ⟨t, h⟩
    refine ⟨version_of_ofData h, fun key s hex hkey hhex => ?_⟩
    obtain ⟨style, -, hstyle⟩ := exists_of_ofData h hkey
    obtain ⟨c, hc, -⟩ := hstyle.colored hex hhex
    exact ⟨c, hc⟩
  · rintro ⟨hversion, hall⟩
    cases h : ofData d with
    | ok t => exact ⟨t, rfl⟩
    | error e =>
        obtain ⟨key, s, hex, cause, hkey, hhex, hcause, -⟩ := exists_of_ofData_error hversion h
        obtain ⟨c, hc⟩ := hall key s hex hkey hhex
        cases hcause.symm.trans hc

theorem policy_of_styleFor? (h : t.styleFor? tag = some style) : t.policy tag = style := by
  rw [policy, colorFor?, fontFor, h]
  rfl

theorem policy_of_none (h : t.styleFor? tag = none) : t.policy tag = {} := by
  rw [policy, colorFor?, fontFor, h]
  rfl

/-- A theme is read if its version is the current one and each color text in it can be read. A tag then
looks as the entry says whose key is the longest that the tag is under, and as that entry alone; without
such a key it is plain. The search for it comes to an end for every tag. -/
theorem policy_by_nearest (d : ThemeData) :
    ((∃ t, ofData d = .ok t) ↔ d.version = 1 ∧
      ∀ key s hex, d.styles.get? key = some s → s.colorText? = some hex → ∃ c, Color.ofHex hex = .ok c) ∧
    (d.version ≠ 1 → ofData d = .error (.unsupportedVersion d.version)) ∧
    (∀ e, d.version = 1 → ofData d = .error e →
      ∃ key s hex cause, d.styles.get? key = some s ∧ s.colorText? = some hex ∧
        Color.ofHex hex = .error cause ∧ e = .invalidStyle key cause) ∧
    ∀ t, ofData d = .ok t → ∀ tag,
      ((∃ key ∈ d.styles.keys, Under tag key) → ∃! key, Nearest d.styles.keys tag key) ∧
      (∀ key s, Nearest d.styles.keys tag key → d.styles.get? key = some s →
        s.Resolves { color := t.colorFor? tag, font := t.fontFor tag }) ∧
      ((∀ key ∈ d.styles.keys, ¬ Under tag key) → t.colorFor? tag = none ∧ t.fontFor tag = {}) ∧
      ∀ result, t.Search tag result ↔ result = t.styleFor? tag := by
  refine ⟨exists_ofData_ok_iff, ofData_of_version, fun e => exists_of_ofData_error, fun t h tag => ⟨?_, ?_, ?_, ?_⟩⟩
  · rintro ⟨key, hmem, hunder⟩
    rw [← keys_of_ofData h] at hmem ⊢
    obtain ⟨key, hkey⟩ := exists_nearest hmem hunder
    exact ⟨key, hkey, fun _ hkey' => hkey'.unique hkey⟩
  · intro key s hkey hs
    obtain ⟨style, hget, hstyle⟩ := exists_of_ofData h hs
    rw [← keys_of_ofData h] at hkey
    have hpolicy := policy_of_styleFor? (styleFor?_eq_some_iff.mpr ⟨key, hkey, hget⟩)
    change s.Resolves (t.policy tag)
    rwa [hpolicy]
  · intro hnone
    rw [← keys_of_ofData h] at hnone
    have hpolicy := policy_of_none (styleFor?_eq_none_iff.mpr hnone)
    exact ⟨congrArg Style.color hpolicy, congrArg Style.font hpolicy⟩
  · intro result
    exact ⟨Search.result_eq, fun hresult => hresult ▸ search_styleFor? t tag⟩

end Theme
end LineTint
