namespace LineTint

variable {ε ε' α β : Type} {x : Except ε α}

theorem bind_eq_ok_iff {f : α → Except ε β} {b : β} : x >>= f = .ok b ↔ ∃ a, x = .ok a ∧ f a = .ok b := by
  cases x with
  | error e => simp [bind, Except.bind]
  | ok a => simp [bind, Except.bind]

theorem error_of_bind {f : α → Except ε β} {cause : ε} (hx : ∀ e, x = .error e → e = cause)
    (hf : ∀ a e, f a = .error e → e = cause) : ∀ e, x >>= f = .error e → e = cause := by
  intro e h
  cases x with
  | error e' => exact hx e (by simpa [bind, Except.bind] using h)
  | ok a => exact hf a e h

theorem mapError_eq_ok_iff {f : ε → ε'} {a : α} : x.mapError f = .ok a ↔ x = .ok a := by
  cases x with
  | error cause =>
      change Except.error (f cause) = .ok a ↔ _
      simp
  | ok b =>
      change Except.ok b = .ok a ↔ _
      simp

theorem map_some_eq_ok_iff {a : α} : some <$> x = .ok (some a) ↔ x = .ok a := by
  cases x with
  | error cause => exact iff_of_false nofun nofun
  | ok b =>
      change Except.ok (some b) = .ok (some a) ↔ _
      simp

theorem map_eq_error_iff {f : α → β} {cause : ε} : f <$> x = .error cause ↔ x = .error cause := by
  cases x with
  | error cause' =>
      change Except.error cause' = Except.error cause ↔ _
      simp
  | ok b => exact iff_of_false nofun nofun

theorem toOption_eq_some_iff {a : α} : x.toOption = some a ↔ x = .ok a := by
  cases x with
  | error cause => exact iff_of_false nofun nofun
  | ok b =>
      change some b = some a ↔ _
      simp

theorem exists_of_isOk (h : x.isOk = true) : ∃ a, x = .ok a := by
  cases x with
  | error cause => cases h
  | ok a => exact ⟨a, rfl⟩

end LineTint
