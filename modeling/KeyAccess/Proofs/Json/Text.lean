-- Written tokens are scanned back. Every token but a number ends where its last character stands,
-- so tokens can be written one after the other without white space; strings come back whatever
-- characters they hold.
import Mathlib
import KeyAccess.Json.Token

namespace KeyAccess.Json

/-! ## Strings -/

theorem hexValue?_hexDigit : ∀ n < 16, hexValue? (hexDigit n) = some n := by decide

/-- No character is half of a surrogate pair. -/
theorem ofCode_toNat (c : Char) : Piece.ofCode c.toNat = .char c := by
  have hvalid : c.toNat < 0xD800 ∨ 0xDFFF < c.toNat ∧ c.toNat < 0x110000 := c.valid
  unfold Piece.ofCode
  rw [if_neg (by omega), Char.ofNat_toNat]

/-- The escape of a control character names its code. -/
theorem hexCode?_control {c : Char} (h : c.toNat < 0x20) :
    hexCode? '0' '0' (hexDigit (c.toNat / 16)) (hexDigit (c.toNat % 16)) = some c.toNat := by
  have hzero : hexValue? '0' = some 0 := by decide
  have hhigh := hexValue?_hexDigit (c.toNat / 16) (by omega)
  have hlow := hexValue?_hexDigit (c.toNat % 16) (by omega)
  simp only [hexCode?, hzero, hhigh, hlow, Option.some.injEq]
  omega

/-- One piece more in front of what was scanned. -/
def before (piece : Piece) (scanned : Option (List Piece × List Char)) :
    Option (List Piece × List Char) :=
  scanned.map fun s => (piece :: s.1, s.2)

theorem scanString_code {a b c d : Char} {code : Nat} (h : hexCode? a b c d = some code)
    (rest : List Char) : scanString ('\\' :: 'u' :: a :: b :: c :: d :: rest) =
      before (Piece.ofCode code) (scanString rest) := by
  rw [scanString, h]
  cases scanString rest <;> rfl

theorem scanString_short {e c : Char} (h : shortEscape? e = some c) (rest : List Char) :
    scanString ('\\' :: e :: rest) = before (.char c) (scanString rest) := by
  have hcode : e ≠ 'u' := by
    rintro rfl
    cases h
  rw [scanString, h]
  · cases scanString rest <;> rfl
  · exact fun _ _ _ _ _ he _ => hcode he

theorem scanString_plain {c : Char} (hquote : c ≠ '"') (hbackslash : c ≠ '\\')
    (hcontrol : ¬ c.toNat < 0x20) (rest : List Char) :
    scanString (c :: rest) = before (.char c) (scanString rest) := by
  rw [scanString, if_neg (not_or.2 ⟨hcontrol, hbackslash⟩)]
  · cases scanString rest <;> rfl
  · exact hquote
  · exact fun _ _ _ _ _ hc _ => hbackslash hc
  · exact fun _ _ hc _ => hbackslash hc

/-- A written character is scanned as one piece. -/
theorem scanString_writtenChar (c : Char) (rest : List Char) :
    scanString (writtenChar c ++ rest) = before (.char c) (scanString rest) := by
  unfold writtenChar
  split_ifs with hquote hbackslash hbackspace hfeed hline hreturn htab hcontrol
  · exact scanString_short (by rw [hquote]; rfl) rest
  · exact scanString_short (by rw [hbackslash]; rfl) rest
  · exact scanString_short (by rw [hbackspace]; rfl) rest
  · exact scanString_short (by rw [hfeed]; rfl) rest
  · exact scanString_short (by rw [hline]; rfl) rest
  · exact scanString_short (by rw [hreturn]; rfl) rest
  · exact scanString_short (by rw [htab]; rfl) rest
  · rw [← ofCode_toNat]
    exact scanString_code (hexCode?_control hcontrol) rest
  · exact scanString_plain hquote hbackslash hcontrol rest

theorem scanString_written (s rest : List Char) :
    scanString (s.flatMap writtenChar ++ '"' :: rest) = some (s.map .char, rest) := by
  induction s with
  | nil => rfl
  | cons c s ih =>
    rw [List.flatMap_cons, List.append_assoc, scanString_writtenChar, ih]
    rfl

theorem joinPieces_chars (s : List Char) : joinPieces (s.map .char) = some s := by
  induction s with
  | nil => rfl
  | cons c s ih =>
    rw [List.map_cons, joinPieces, ih]
    rfl

/-! ## Tokens -/

/-- The token ends with its last character, whatever follows it. -/
def Token.Closed : Token → Prop
  | .number _ | .string none | .broken => False
  | _ => True

theorem scanToken_chars {t : Token} (h : t.Closed) (rest : List Char) :
    scanToken (t.chars ++ rest) = some (t, rest) := by
  cases t with
  | number n => cases h
  | broken => cases h
  | string s =>
    cases s with
    | none => cases h
    | some s =>
      simp only [Token.chars, List.cons_append, List.append_assoc, List.nil_append, scanToken,
        scanString_written, Option.map_some, joinPieces_chars, String.ofList_toList]
  | boolean b => cases b <;> rfl
  | _ => rfl

/-- A written token starts with no white space. -/
theorem chars_cons {t : Token} (h : t.Closed) :
    ∃ c rest, t.chars = c :: rest ∧ isSpace c = false := by
  cases t with
  | number n => cases h
  | broken => cases h
  | string s =>
    cases s with
    | none => cases h
    | some s => exact ⟨_, _, rfl, rfl⟩
  | boolean b => cases b <;> exact ⟨_, _, rfl, rfl⟩
  | _ => exact ⟨_, _, rfl, rfl⟩

theorem scan_chars {written : List Token} (h : ∀ t ∈ written, t.Closed) {fuel : Nat}
    (hfuel : (written.flatMap Token.chars).length ≤ fuel) :
    scan fuel (written.flatMap Token.chars) = written := by
  induction written generalizing fuel with
  | nil => cases fuel <;> rfl
  | cons t written ih =>
    obtain ⟨ht, hrest⟩ := List.forall_mem_cons.1 h
    obtain ⟨c, cs, hchars, hspace⟩ := chars_cons ht
    have hscan := scanToken_chars ht (written.flatMap Token.chars)
    rw [hchars, List.cons_append] at hscan
    rw [List.flatMap_cons, hchars, List.cons_append] at hfuel ⊢
    rw [List.length_cons, List.length_append] at hfuel
    cases fuel with
    | zero => omega
    | succ fuel =>
      rw [scan, List.dropWhile_cons_of_neg (by simp [hspace])]
      simp only [hscan]
      rw [ih hrest (by omega)]

/-- What is written of some tokens has these tokens. -/
theorem tokens_render {written : List Token} (h : ∀ t ∈ written, t.Closed) :
    tokens (render written) = written := by
  unfold tokens render
  rw [String.toList_ofList]
  exact scan_chars h le_rfl

end KeyAccess.Json
