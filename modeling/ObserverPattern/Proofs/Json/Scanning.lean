import Mathlib.Tactic.SplitIfs
import ObserverPattern.Json.Printer
import ObserverPattern.Json.Token

/-!
# Scanning what has been written

A written number is scanned as the number, if nothing follows that could belong to it (`scanNumber_int`), and a
written string as the string, whatever follows (`scanString_quoted`).

* `Spells` tells that a text is made of written tokens and blanks. Then these are its tokens (`Spells.tokens?_eq`).
-/

namespace ObserverPattern.Json

/-! ## Numbers -/

/-- Nothing at the start of a text can belong to a number before it. -/
def Detached (s : List Char) : Prop := ∀ c ∈ s.head?, c.isDigit = false ∧ c ≠ '.' ∧ c ≠ 'e' ∧ c ≠ 'E'

theorem detached_nil : Detached [] := by
  simp [Detached]

theorem detached_cons {c : Char} {s : List Char} :
    Detached (c :: s) ↔ c.isDigit = false ∧ c ≠ '.' ∧ c ≠ 'e' ∧ c ≠ 'E' := by
  simp [Detached]

/-- The digits of a number start with zero only if it is zero. -/
private theorem eq_zero_of_head?_toDigits {n : Nat} (h : (Nat.toDigits 10 n).head? = some '0') : n = 0 := by
  induction n using Nat.strongRecOn with
  | ind n ih =>
    rw [Nat.toDigits_eq_if (by decide)] at h
    split at h
    · simpa using h
    · next hn =>
      -- The first digit is that of n / 10, which is not zero here.
      rw [List.head?_append, Option.or_eq_left_of_isSome (by simp [List.isSome_head?])] at h
      have := ih (n / 10) (by omega) h
      omega

section Numbers

variable {n : Nat} {rest : List Char}

private theorem takeWhile_digits (h : Detached rest) :
    (Nat.toDigits 10 n ++ rest).takeWhile Char.isDigit = Nat.toDigits 10 n ∧
      (Nat.toDigits 10 n ++ rest).dropWhile Char.isDigit = rest := by
  have hdigits : ∀ c ∈ Nat.toDigits 10 n, c.isDigit = true :=
    fun c hc => Nat.isDigit_of_mem_toDigits (by decide) (by decide) hc
  rw [List.takeWhile_append_of_pos hdigits, List.dropWhile_append_of_pos hdigits]
  cases rest with
  | nil => simp
  | cons c rest => simp [(detached_cons.1 h).1]

private theorem wholePart?_digits (h : Detached rest) :
    wholePart? (Nat.toDigits 10 n ++ rest) = some (Nat.toDigits 10 n, rest) := by
  obtain ⟨htake, hdrop⟩ := takeWhile_digits (n := n) h
  have hsingle : ¬((Nat.toDigits 10 n).head? = some '0' ∧ (Nat.toDigits 10 n).length ≠ 1) := by
    rintro ⟨hhead, hlength⟩
    obtain rfl := eq_zero_of_head?_toDigits hhead
    exact hlength rfl
  have hne : (Nat.toDigits 10 n).isEmpty = false := by simp
  simp [wholePart?, digits?, htake, hdrop, hne, hsingle]

private theorem fraction?_detached (h : Detached rest) : fraction? rest = some ([], rest) := by
  unfold fraction?
  split
  · exact absurd rfl (detached_cons.1 h).2.1
  · rfl

private theorem exponent?_detached (h : Detached rest) : exponent? rest = some ([], rest) := by
  cases rest with
  | nil => rfl
  | cons c rest =>
    obtain ⟨-, -, he, hE⟩ := detached_cons.1 h
    simp [exponent?, he, hE]

/-- The first digit of a number is none of the other characters that tokens start with. -/
private theorem scan_digits {c : Char} {s : List Char} (hc : c.isDigit = true ∨ c = '-') :
    Token.scan (c :: s) = (scanNumber (c :: s)).map fun (n, rest) => (.number n, rest) := by
  unfold Token.scan
  split <;> first | rfl | simp_all

private theorem chars_ofNat (n : Nat) : (Number.int (Int.ofNat n)).chars = Nat.toDigits 10 n := by
  show (toString n).toList = Nat.toDigits 10 n
  simp

private theorem chars_negSucc (n : Nat) : (Number.int (Int.negSucc n)).chars = '-' :: Nat.toDigits 10 (n + 1) := by
  show ("-" ++ toString (n + 1)).toList = '-' :: Nat.toDigits 10 (n + 1)
  simp

/-- A written integer starts with a digit or with a minus sign. -/
private theorem chars_int (k : Int) : ∃ c cs, (Number.int k).chars = c :: cs ∧ (c.isDigit = true ∨ c = '-') := by
  cases k with
  | ofNat n =>
    obtain ⟨c, cs, hcs⟩ := List.exists_cons_of_ne_nil (Nat.toDigits_ne_nil (n := n) (b := 10))
    refine ⟨c, cs, ?_, .inl (Nat.isDigit_of_mem_toDigits (by decide) (by decide) (hcs ▸ List.mem_cons_self))⟩
    rw [← hcs]
    exact chars_ofNat n
  | negSucc n => exact ⟨'-', _, chars_negSucc n, .inr rfl⟩

/-- A written integer is scanned as the integer. -/
theorem scanNumber_int (k : Int) (h : Detached rest) :
    scanNumber ((Number.int k).chars ++ rest) = some (.int k, rest) := by
  cases k with
  | ofNat n =>
    obtain ⟨c, cs, hcs⟩ := List.exists_cons_of_ne_nil (Nat.toDigits_ne_nil (n := n) (b := 10))
    have hdigit : c.isDigit = true := Nat.isDigit_of_mem_toDigits (by decide) (by decide) (hcs ▸ List.mem_cons_self)
    have hc : c ≠ '-' := by
      rintro rfl
      cases hdigit
    rw [chars_ofNat]
    unfold scanNumber
    split
    next negative s heq =>
      split at heq
      · next hs =>
        rw [hcs, List.cons_append, List.cons_eq_cons] at hs
        exact absurd hs.1 hc
      · obtain ⟨rfl, rfl⟩ := Prod.mk.inj heq
        simp [wholePart?_digits h, fraction?_detached h, exponent?_detached h]
  | negSucc n =>
    rw [chars_negSucc, List.cons_append]
    simp only [scanNumber, wholePart?_digits h, fraction?_detached h, exponent?_detached h, Option.bind_eq_bind,
      Option.bind_some, Nat.ofDigitChars_ten_toDigits]
    simp [Int.negSucc_eq]

end Numbers

/-! ## Strings -/

private theorem hexDigit?_hexDigit {n : Nat} (h : n < 16) : hexDigit? (hexDigit n) = some n := by
  have hall : ∀ n < 16, hexDigit? (hexDigit n) = some n := by decide
  exact hall n h

/-- A character is written by a letter behind a backslash, by its code, or as it is. -/
private theorem escape_cases (c : Char) :
    (∃ e, escape c = ['\\', e] ∧ e ≠ 'u' ∧ escaped? e = some c) ∨
      (c.toNat < 0x20 ∧ escape c = ['\\', 'u', '0', '0', hexDigit (c.toNat / 16), hexDigit (c.toNat % 16)]) ∨
        (¬c.toNat < 0x20 ∧ c ≠ '"' ∧ c ≠ '\\' ∧ escape c = [c]) := by
  unfold escape
  split_ifs <;> simp_all [escaped?]

/-- A written character is scanned as the character itself, or as its code if it is a control character. -/
private theorem scanString_escape (c : Char) (s : List Char) :
    ∃ p : Piece, (p = .char c ∨ p = .unit c.toNat ∧ c.toNat < 0x20) ∧
      scanString (escape c ++ s) = (scanString s).map fun (pieces, rest) => (p :: pieces, rest) := by
  rcases escape_cases c with ⟨e, hescape, hu, he⟩ | ⟨hcontrol, hescape⟩ | ⟨hcontrol, hquote, hbackslash, hescape⟩
  · refine ⟨.char c, .inl rfl, ?_⟩
    simp only [hescape, List.cons_append, List.nil_append, scanString, hu, false_implies, implies_true, he,
      Option.map_eq_bind]
    rfl
  · have hhigh := hexDigit?_hexDigit (n := c.toNat / 16) (by omega)
    have hlow := hexDigit?_hexDigit (n := c.toNat % 16) (by omega)
    have hzero : hexDigit? '0' = some 0 := rfl
    have hunit : hexUnit? '0' '0' (hexDigit (c.toNat / 16)) (hexDigit (c.toNat % 16)) = some c.toNat := by
      simp [hexUnit?, hhigh, hlow, hzero]
      omega
    refine ⟨.unit c.toNat, .inr ⟨rfl, hcontrol⟩, ?_⟩
    simp only [hescape, List.cons_append, List.nil_append, scanString, hunit, Option.map_eq_bind]
    rfl
  · refine ⟨.char c, .inl rfl, ?_⟩
    simp only [hescape, List.cons_append, List.nil_append, scanString, hbackslash, hcontrol, or_self, if_false,
      false_implies, implies_true, Option.map_eq_bind]
    rfl

private theorem joinUnits_unit {u : Nat} (hu : u < 0xD800) {pieces : List Piece} {s : List Char}
    (h : joinUnits pieces = some s) : joinUnits (.unit u :: pieces) = some (Char.ofNat u :: s) := by
  have hhigh : isHighSurrogate u = false := by simp [isHighSurrogate]; omega
  have hlow : isLowSurrogate u = false := by simp [isLowSurrogate]; omega
  -- Only a unit of the surrogates asks what follows it.
  unfold joinUnits
  match pieces, h with
  | [], h => simp [hhigh, hlow, h]
  | .char c :: rest, h => simp [hhigh, hlow, h]
  | .unit v :: rest, h => simp [hhigh, hlow, h]

/-- A written string is scanned as the string. -/
theorem scanString_quoted (s rest : List Char) :
    ∃ pieces, scanString (s.flatMap escape ++ '"' :: rest) = some (pieces, rest) ∧ joinUnits pieces = some s := by
  induction s with
  | nil => exact ⟨[], rfl, rfl⟩
  | cons c s ih =>
    obtain ⟨pieces, hscan, hjoin⟩ := ih
    obtain ⟨p, hp, hescape⟩ := scanString_escape c (s.flatMap escape ++ '"' :: rest)
    refine ⟨p :: pieces, ?_, ?_⟩
    · rw [List.flatMap_cons, List.append_assoc, hescape, hscan]
      rfl
    · rcases hp with rfl | ⟨rfl, hcontrol⟩
      · rw [joinUnits, hjoin]
        rfl
      · rw [joinUnits_unit (by omega) hjoin, Char.ofNat_toNat]

/-! ## Texts -/

/-- Texts that are made of written tokens and blanks, and these tokens. -/
inductive Spells : List Char → List Token → Prop
  | nil : Spells [] []
  | blank {c : Char} {s : List Char} {ts : List Token} (hc : isSpace c = true) (h : Spells s ts) : Spells (c :: s) ts
  | token {t : Token} {chars s : List Char} {ts : List Token} (hne : chars ≠ [])
      (hscan : Token.scan (chars ++ s) = some (t, s)) (h : Spells s ts) : Spells (chars ++ s) (t :: ts)

namespace Spells

variable {s : List Char} {ts : List Token}

theorem blanks {b : List Char} (hb : ∀ c ∈ b, isSpace c = true) (h : Spells s ts) : Spells (b ++ s) ts := by
  induction b with
  | nil => exact h
  | cons c b ih => exact .blank (hb c (by simp)) (ih fun c hc => hb c (by simp [hc]))

/-- A token of one character. -/
theorem punctuation {c : Char} {t : Token} (hscan : ∀ s, Token.scan (c :: s) = some (t, s)) (h : Spells s ts) :
    Spells (c :: s) (t :: ts) :=
  .token (List.cons_ne_nil c []) (hscan s) h

theorem number (k : Int) (hs : Detached s) (h : Spells s ts) :
    Spells ((Number.int k).chars ++ s) (.number (.int k) :: ts) := by
  obtain ⟨c, cs, hchars, hc⟩ := chars_int k
  refine .token (by simp [hchars]) ?_ h
  have hscan := scanNumber_int k hs
  rw [hchars, List.cons_append] at hscan ⊢
  rw [scan_digits hc, hscan]
  rfl

theorem string (text : String) (h : Spells s ts) : Spells (quoted (some text) ++ s) (.string (some text) :: ts) := by
  refine .token (by simp [quoted]) ?_ h
  obtain ⟨pieces, hscan, hjoin⟩ := scanString_quoted text.toList s
  have hquoted : quoted (some text) ++ s = '"' :: (text.toList.flatMap escape ++ '"' :: s) := by simp [quoted]
  rw [hquoted, Token.scan, hscan]
  simp [hjoin]

/-- No token starts with a blank. -/
private theorem scan_blank {c : Char} (hc : isSpace c = true) (s : List Char) : Token.scan (c :: s) = none := by
  have hcases : c = ' ' ∨ c = '\n' ∨ c = '\t' ∨ c = '\r' := by simpa [isSpace, or_assoc] using hc
  rcases hcases with rfl | rfl | rfl | rfl <;> rfl

private theorem scanTokens_eq (h : Spells s ts) {fuel : Nat} (hfuel : s.length ≤ fuel) :
    scanTokens fuel s = some ts := by
  induction h generalizing fuel with
  | nil => cases fuel <;> rfl
  | @blank c s ts hc _ ih =>
    obtain ⟨fuel, rfl⟩ : ∃ k, fuel = k + 1 := ⟨fuel - 1, by rw [List.length_cons] at hfuel; omega⟩
    have hrest := @ih (fuel + 1) (by rw [List.length_cons] at hfuel; omega)
    simp only [scanTokens, List.dropWhile_cons_of_pos hc] at hrest ⊢
    exact hrest
  | @token t chars s ts hne hscan _ ih =>
    -- A token takes at least one character, so the fuel lasts for the rest.
    obtain ⟨c, chars, rfl⟩ := List.exists_cons_of_ne_nil hne
    obtain ⟨fuel, rfl⟩ : ∃ k, fuel = k + 1 := ⟨fuel - 1, by simp at hfuel; omega⟩
    have hrest := @ih fuel (by simp at hfuel; omega)
    have hc : ¬isSpace c = true := fun hc => by
      rw [List.cons_append, scan_blank hc] at hscan
      cases hscan
    rw [List.cons_append] at hscan ⊢
    simp only [scanTokens, List.dropWhile_cons_of_neg hc, hscan, hrest, Option.bind_eq_bind, Option.bind_some]

/-- The tokens of a text are those that it is made of. -/
theorem tokens?_eq (h : Spells s ts) : tokens? s = some ts := h.scanTokens_eq (Nat.le_refl _)

end Spells

end ObserverPattern.Json
