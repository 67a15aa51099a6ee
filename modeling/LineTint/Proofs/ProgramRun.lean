import LineTint.Program
import LineTint.Proofs.FilePlace
import LineTint.Proofs.OwnQuery

namespace LineTint.Program

variable {Tree Query : Type} {e : Engine Tree Query} {home : Home} {fs fs' : FileSystem} {a : Arguments}
  {c : Config} {t : Theme} {job : Job Tree Query}

/-- The configuration that a run works with. It is read after the directory of the logs has been made. -/
def configOf (home : Home) (fs : FileSystem) : Config := Config.load (home.makeLogs fs).1 home.config

theorem theme_of_parse {texts : List String} (h : Arguments.parse texts = .ok (.run a)) (hsave : a.saveTheme = true) :
    ∃ id, a.theme = some id := by
  unfold Arguments.parse at h
  split at h
  next p hp =>
    split at h
    next hcomplete =>
      obtain rfl : p.arguments = a := by simpa using h
      simpa [Arguments.isComplete, hsave, Option.isSome_iff_exists] using hcomplete
    next => cases h
  next => cases h
  next => cases h
  next => cases h

theorem chooseTheme_of_load (hload : Theme.load fs home (a.theme.getD c.theme) = .ok t) (hsave : a.saveTheme = false) :
    chooseTheme home fs a c = (fs, .ok t) := by
  unfold chooseTheme
  simp only [hload, hsave, Bool.false_eq_true, if_false]

theorem chooseTheme_of_save {id : String} (hload : Theme.load fs home id = .ok t) (hid : a.theme = some id)
    (hasked : a.saveTheme = true) (hsave : { c with theme := id }.save fs home.config = (fs', .ok ())) :
    chooseTheme home fs a c = (fs', .ok t) := by
  unfold chooseTheme
  simp only [hid, Option.getD_some, hload, hasked, if_true, hsave]

theorem chooseTheme_fst_of_not_saved
    (h : a.saveTheme = true → ∀ t, Theme.load fs home (a.theme.getD c.theme) ≠ .ok t) :
    (chooseTheme home fs a c).1 = fs := by
  unfold chooseTheme
  dsimp only
  cases hload : Theme.load fs home (a.theme.getD c.theme) with
  | error cause => rfl
  | ok t =>
      cases hasked : a.saveTheme with
      | false => rfl
      | true => exact (h hasked t hload).elim

theorem perform_fst (e : Engine Tree Query) (home : Home) (fs : FileSystem) (a : Arguments) :
    (perform e home fs a).1 = if a.listThemes then (home.makeLogs fs).1
      else (chooseTheme home (home.makeLogs fs).1 a (configOf home fs)).1 := by
  unfold perform configOf
  rcases home.makeLogs fs with ⟨fs₁, logs⟩
  dsimp only
  split
  next => rfl
  next => rcases chooseTheme home fs₁ a (Config.load fs₁ home.config) with ⟨fs', cause | t⟩ <;> rfl

theorem perform_of_chosen (hlisting : a.listThemes = false)
    (hchosen : chooseTheme home (home.makeLogs fs).1 a (configOf home fs) = (fs', .ok t)) :
    perform e home fs a = (fs', highlight e home fs' a (configOf home fs) t) := by
  rw [configOf] at hchosen ⊢
  simp only [perform, hlisting, Bool.false_eq_true, if_false, hchosen]

def opened (e : Engine Tree Query) (policy : StylePolicy) (grammar : Grammar) (source : String) :
    Highlighter (IncrementalParser Tree) Query where
  policy := policy
  parser := some (IncrementalParser.parse e { grammar } source)

theorem query?_prepared (e : Engine Tree Query) (policy : StylePolicy) (grammar : Grammar) (source : String) :
    ((opened e policy grammar source).prepare e).slot.query? = e.compile grammar := by
  have hstart : (opened e policy grammar source).Settled e := trivial
  exact QuerySlot.Settled.query?_prepare hstart

/-- All that has to be there before a job can be done. -/
structure Ready (e : Engine Tree Query) (home : Home) (fs : FileSystem) (a : Arguments) (c : Config) (t : Theme)
    (grammar : Grammar) (q : Query) (job : Job Tree Query) : Prop where
  compiles : e.compile grammar = some q
  filter_eq : a.lineFilter = .ok job.filter
  json_eq : a.json = job.json
  highlighter_eq : job.highlighter = (opened e t.policy grammar job.source).prepare e
  exists_file : ∃ file language, a.file = some file ∧ a.resolveLanguage c = .ok language ∧
    Grammar.load? fs home c.userQueries language = some grammar ∧ fs.readText file = .ok job.source

theorem prepare_eq_ok_iff : prepare e home fs a c t = .ok job ↔ ∃ grammar q, Ready e home fs a c t grammar q job := by
  constructor
  · intro h
    unfold prepare at h
    cases hfile : a.file with
    | none => simp [hfile] at h
    | some file =>
        simp only [hfile] at h
        obtain ⟨language, hlanguage, h⟩ := bind_eq_ok_iff.mp h
        obtain ⟨filter, hfilter, h⟩ := bind_eq_ok_iff.mp h
        cases hgrammar : Grammar.load? fs home c.userQueries language with
        | none => simp [hgrammar] at h
        | some grammar =>
            simp only [hgrammar] at h
            obtain ⟨source, hsource, h⟩ := bind_eq_ok_iff.mp h
            change (if ((opened e t.policy grammar source).prepare e).slot.isReady then _ else _) = _ at h
            rw [QuerySlot.isReady, query?_prepared] at h
            cases hq : e.compile grammar with
            | none => simp [hq] at h
            | some q =>
                rw [hq] at h
                obtain rfl := Except.ok.inj h
                exact ⟨grammar, q, hq, mapError_eq_ok_iff.mp hfilter, rfl, rfl, file, language, hfile,
                  mapError_eq_ok_iff.mp hlanguage, hgrammar, mapError_eq_ok_iff.mp hsource⟩
  · rintro ⟨grammar, q, hq, hfilter, hjson, hhighlighter, file, language, hfile, hlanguage, hgrammar, hsource⟩
    obtain ⟨source, highlighter, filter, json⟩ := job
    obtain rfl : highlighter = (opened e t.policy grammar source).prepare e := hhighlighter
    have hready : ((opened e t.policy grammar source).prepare e).slot.isReady = true := by
      rw [QuerySlot.isReady, query?_prepared, hq]
      rfl
    simp only [prepare, hfile]
    refine bind_eq_ok_iff.mpr ⟨language, mapError_eq_ok_iff.mpr hlanguage,
      bind_eq_ok_iff.mpr ⟨filter, mapError_eq_ok_iff.mpr hfilter, ?_⟩⟩
    simp only [hgrammar]
    refine bind_eq_ok_iff.mpr ⟨source, mapError_eq_ok_iff.mpr hsource, ?_⟩
    rw [hjson]
    exact if_pos hready

end LineTint.Program
