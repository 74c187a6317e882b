import LowDimLP.Json.Reader
/-!
# Number tokens

What the reader takes for a number does not depend on what follows, as long as that does not go on with the
number: `number?_append`. So a token that is read as a whole where it stands alone (`IsToken`) is split off
wherever it stands in a document.
-/

namespace LowDimLP.Json

/-- The bytes are one number token. -/
def IsToken (token : Bytes) : Prop := number? token = some (token, [])

/-- No digits go on with these bytes. -/
def EndsDigits (rest : Bytes) : Prop := ∀ b ∈ rest.head?, isDigitByte b = false

/-- No number goes on with these bytes. -/
def EndsNumber (rest : Bytes) : Prop :=
  ∀ b ∈ rest.head?, isDigitByte b = false ∧ b ≠ byte '.' ∧ b ≠ byte 'e' ∧ b ≠ byte 'E'

theorem EndsNumber.digits {rest : Bytes} (ends : EndsNumber rest) : EndsDigits rest := fun b hb => (ends b hb).1

theorem endsNumber_nil : EndsNumber [] := by simp [EndsNumber]

theorem endsNumber_cons {b : UInt8} (rest : Bytes) (digit : isDigitByte b = false) (point : b ≠ byte '.')
    (small : b ≠ byte 'e') (capital : b ≠ byte 'E') : EndsNumber (b :: rest) := by
  simp [EndsNumber, digit, point, small, capital]

section Scanners

variable {s r x rest : Bytes}

theorem takeWhile_digits_append (ends : EndsDigits rest) :
    (s ++ rest).takeWhile isDigitByte = s.takeWhile isDigitByte ∧
      (s ++ rest).dropWhile isDigitByte = s.dropWhile isDigitByte ++ rest := by
  induction s with
  | nil =>
    cases rest with
    | nil => simp
    | cons b rest => simp [ends b rfl]
  | cons b s ih => cases digit : isDigitByte b <;> simp [digit, ih]

theorem digits?_append (ends : EndsDigits rest) (h : digits? s = some (x, r)) :
    digits? (s ++ rest) = some (x, r ++ rest) := by
  obtain ⟨taken, left⟩ := takeWhile_digits_append (s := s) ends
  rw [digits?] at h ⊢
  rw [taken, left]
  split at h
  · cases h
  · next some_digit =>
    cases h
    rw [if_neg some_digit]

theorem whole?_append (ends : EndsDigits rest) (h : whole? s = some (x, r)) :
    whole? (s ++ rest) = some (x, r ++ rest) := by
  rw [whole?] at h
  obtain ⟨⟨ds, left⟩, read, chosen⟩ := Option.bind_eq_some_iff.mp h
  rw [whole?, digits?_append ends read]
  dsimp only at chosen
  -- Only of several digits the first must not be zero.
  rcases ds with _ | ⟨first, _ | ⟨second, others⟩⟩
  · cases chosen
    rfl
  · cases chosen
    rfl
  · dsimp only at chosen
    split at chosen
    · cases chosen
    · next proper =>
      cases chosen
      exact if_neg proper

theorem fraction?_append (ends : EndsNumber rest) (h : fraction? s = some (x, r)) :
    fraction? (s ++ rest) = some (x, r ++ rest) := by
  cases s with
  | nil =>
    cases h
    cases rest with
    | nil => rfl
    | cons b rest => exact if_neg (ends b rfl).2.1
  | cons b s =>
    rw [List.cons_append, fraction?]
    rw [fraction?] at h
    split at h
    · next point =>
      obtain ⟨⟨ds, left⟩, read, chosen⟩ := Option.map_eq_some_iff.mp h
      cases chosen
      rw [if_pos point, digits?_append ends.digits read]
      rfl
    · next other =>
      cases h
      rw [if_neg other]
      rfl

theorem plusOrMinus_append (nonempty : s ≠ []) :
    plusOrMinus (s ++ rest) = ((plusOrMinus s).1, (plusOrMinus s).2 ++ rest) := by
  cases s with
  | nil => exact absurd rfl nonempty
  | cons b s =>
    rw [List.cons_append, plusOrMinus, plusOrMinus]
    split <;> rfl

theorem minus_append (nonempty : s ≠ []) : minus (s ++ rest) = ((minus s).1, (minus s).2 ++ rest) := by
  cases s with
  | nil => exact absurd rfl nonempty
  | cons b s =>
    rw [List.cons_append, minus, minus]
    split <;> rfl

theorem exponent?_append (ends : EndsNumber rest) (h : exponent? s = some (x, r)) :
    exponent? (s ++ rest) = some (x, r ++ rest) := by
  cases s with
  | nil =>
    cases h
    cases rest with
    | nil => rfl
    | cons b rest => exact if_neg (not_or.mpr (ends b rfl).2.2)
  | cons b s =>
    rw [List.cons_append, exponent?]
    rw [exponent?] at h
    split at h
    · next mark =>
      have nonempty : s ≠ [] := by
        rintro rfl
        cases h
      rw [if_pos mark, plusOrMinus_append nonempty]
      cases signed : plusOrMinus s with
      | mk sign digits =>
        rw [signed] at h
        obtain ⟨⟨ds, left⟩, read, chosen⟩ := Option.map_eq_some_iff.mp h
        cases chosen
        exact Option.map_eq_some_iff.mpr ⟨_, digits?_append ends.digits read, rfl⟩
    · next other =>
      cases h
      rw [if_neg other]
      rfl

/-- A number is split off in the same way whatever follows, if it ends there. -/
theorem number?_append (ends : EndsNumber rest) (h : number? s = some (x, r)) :
    number? (s ++ rest) = some (x, r ++ rest) := by
  have nonempty : s ≠ [] := by
    rintro rfl
    cases h
  rw [number?] at h ⊢
  rw [minus_append nonempty]
  cases signed : minus s with
  | mk sign magnitude =>
    rw [signed] at h
    obtain ⟨⟨whole, s₁⟩, first, h⟩ := Option.bind_eq_some_iff.mp h
    obtain ⟨⟨fraction, s₂⟩, second, h⟩ := Option.bind_eq_some_iff.mp h
    obtain ⟨⟨exponent, s₃⟩, third, h⟩ := Option.bind_eq_some_iff.mp h
    cases h
    refine Option.bind_eq_some_iff.mpr ⟨_, whole?_append ends.digits first, ?_⟩
    refine Option.bind_eq_some_iff.mpr ⟨_, fraction?_append ends second, ?_⟩
    exact Option.bind_eq_some_iff.mpr ⟨_, exponent?_append ends third, rfl⟩

/-- A token is split off wherever it stands. -/
theorem IsToken.number?_append {token : Bytes} (h : IsToken token) (ends : EndsNumber rest) :
    number? (token ++ rest) = some (token, rest) := Json.number?_append ends h

theorem head_of_digits? (h : digits? s = some (x, r)) : ∃ b t, s = b :: t ∧ isDigitByte b = true := by
  cases s with
  | nil => cases h
  | cons b t =>
    cases digit : isDigitByte b with
    | true => exact ⟨b, t, rfl, digit⟩
    | false => simp [digits?, digit] at h

/-- A token starts with a minus or a digit. -/
theorem IsToken.head {token : Bytes} (h : IsToken token) :
    ∃ b t, token = b :: t ∧ (b = byte '-' ∨ isDigitByte b = true) := by
  cases token with
  | nil => cases h
  | cons b t =>
    refine ⟨b, t, rfl, ?_⟩
    by_cases sign : b = byte '-'
    · exact .inl sign
    have unsigned : minus (b :: t) = ([], b :: t) := if_neg sign
    rw [IsToken, number?, unsigned] at h
    obtain ⟨⟨whole, s₁⟩, first, -⟩ := Option.bind_eq_some_iff.mp h
    obtain ⟨⟨ds, left⟩, read, -⟩ := Option.bind_eq_some_iff.mp first
    obtain ⟨c, u, same, digit⟩ := head_of_digits? read
    cases same
    exact .inr digit

end Scanners

end LowDimLP.Json
