import Stencil.Group.Renderer
/-! Text in addresses. It is written with plain characters and escapes alone, and is read back as it was. -/

namespace Stencil

namespace Text

/-! ## The form of encoded text -/

/-- A character that encoded text may hold outside escapes. -/
def isPlain (c : Char) : Bool := c.isAlphanum || "-_.*+".toList.contains c

def isUpperHexDigit (c : Char) : Bool := "0123456789ABCDEF".toList.contains c

/-- Plain characters and escapes: a percent sign and two hexadecimal digits in upper case. -/
inductive Encoded : List Char → Prop where
  | nil : Encoded []
  | plain {c : Char} {cs : List Char} (h : isPlain c = true) (rest : Encoded cs) : Encoded (c :: cs)
  | escape {high low : Char} {cs : List Char} (hh : isUpperHexDigit high = true) (hl : isUpperHexDigit low = true)
      (rest : Encoded cs) : Encoded ('%' :: high :: low :: cs)

/-! ## Reading encoded text -/

/-- The value of a hexadecimal digit, in upper or lower case. -/
def hexValue? (c : Char) : Option Nat :=
  if c.isDigit then some (c.toNat - '0'.toNat)
  else if 'A' ≤ c ∧ c ≤ 'F' then some (c.toNat - 'A'.toNat + 10)
  else if 'a' ≤ c ∧ c ≤ 'f' then some (c.toNat - 'a'.toNat + 10)
  else none

/-- The bytes that text in an address stands for: a space for a plus sign, the byte of two digits behind a percent sign,
and otherwise the bytes of the text itself. -/
def formBytes : List Char → List UInt8
  | [] => []
  | '+' :: cs => 32 :: formBytes cs
  | '%' :: high :: low :: cs =>
    match hexValue? high, hexValue? low with
    | some h, some l => UInt8.ofNat (16 * h + l) :: formBytes cs
    | _, _ => 37 :: formBytes (high :: low :: cs)
  | c :: cs => String.utf8EncodeChar c ++ formBytes cs

/-- The text that text in an address stands for, if its bytes are UTF-8. -/
def formDecode? (s : String) : Option String := String.fromUTF8? (formBytes s.toList).toByteArray

/-! ## Single bytes -/

variable {b : UInt8} {n : Nat}

theorem toNat_ofNat_byte (b : UInt8) : (Char.ofNat b.toNat).toNat = b.toNat := by
  have hb := b.toNat_lt
  have hvalid : b.toNat.isValidChar := .inl (by omega)
  rw [Char.ofNat, dif_pos hvalid]
  rfl

theorem upperHexDigit_spec (h : n < 16) :
    isUpperHexDigit (upperHexDigit n) = true ∧ hexValue? (upperHexDigit n) = some n := by
  revert h
  revert n
  decide

theorem isPlain_of_isUnreserved (h : isUnreserved b = true) : isPlain (Char.ofNat b.toNat) = true := by
  simp only [isUnreserved, Bool.or_eq_true, beq_iff_eq] at h
  simp only [isPlain, String.toList, Bool.or_eq_true]
  rcases h with (((h | h) | h) | h) | h
  · exact .inl h
  all_goals exact .inr (by rw [h]; decide)

/-- Bytes that stand as they are belong to ASCII. -/
theorem lt_of_isUnreserved (h : isUnreserved b = true) : b.toNat < 128 := by
  have hc := toNat_ofNat_byte b
  simp only [isUnreserved, Bool.or_eq_true, beq_iff_eq] at h
  generalize Char.ofNat b.toNat = c at hc h
  rw [← hc]
  rcases h with (((h | h) | h) | h) | h
  · have hrange : (decide (65 ≤ c.val ∧ c.val ≤ 90) || (decide (97 ≤ c.val) && decide (c.val ≤ 122)) ||
        (decide (48 ≤ c.val) && decide (c.val ≤ 57))) = true := h
    simp only [Bool.or_eq_true, Bool.and_eq_true, decide_eq_true_eq, UInt32.le_iff_toNat_le, UInt32.reduceToNat] at hrange
    rw [Char.toNat]
    omega
  all_goals subst h; decide

theorem utf8EncodeChar_byte (h : b.toNat < 128) : String.utf8EncodeChar (Char.ofNat b.toNat) = [b] := by
  have hval : (Char.ofNat b.toNat).val.toNat = b.toNat := toNat_ofNat_byte b
  have hsize : (Char.ofNat b.toNat).utf8Size = 1 :=
    Char.utf8Size_eq_one_iff.2 (UInt32.le_iff_toNat_le.2 (by rw [hval]; exact Nat.le_of_lt_succ h))
  rw [String.utf8EncodeChar_eq_singleton hsize]
  congr 1
  exact UInt8.toNat.inj (by rw [UInt32.toNat_toUInt8, hval]; exact Nat.mod_eq_of_lt b.toNat_lt)

theorem formBytes_cons {c : Char} {cs : List Char} (hplus : c ≠ '+') (hpercent : c ≠ '%') :
    formBytes (c :: cs) = String.utf8EncodeChar c ++ formBytes cs := by
  rw [formBytes]
  · exact hplus
  · exact fun _ _ _ hc => absurd hc hpercent

/-- A byte in an address is read back as that byte, whatever follows it. -/
theorem formBytes_urlByte (b : UInt8) (cs : List Char) : formBytes (urlByte b ++ cs) = b :: formBytes cs := by
  unfold urlByte
  split
  · next h =>
    have hplus : Char.ofNat b.toNat ≠ '+' := fun hc => absurd h (by rw [isUnreserved, hc]; decide)
    have hpercent : Char.ofNat b.toNat ≠ '%' := fun hc => absurd h (by rw [isUnreserved, hc]; decide)
    rw [List.singleton_append, formBytes_cons hplus hpercent, utf8EncodeChar_byte (lt_of_isUnreserved h),
      List.singleton_append]
  · split
    · next h => simp [formBytes, h]
    · have hb := b.toNat_lt
      have hhigh := (upperHexDigit_spec (show b.toNat / 16 < 16 by omega)).2
      have hlow := (upperHexDigit_spec (show b.toNat % 16 < 16 by omega)).2
      simp only [List.cons_append, List.nil_append, formBytes, hhigh, hlow, Nat.div_add_mod, UInt8.ofNat_toNat]

theorem encoded_urlByte (b : UInt8) {cs : List Char} (rest : Encoded cs) : Encoded (urlByte b ++ cs) := by
  have hb := b.toNat_lt
  unfold urlByte
  split
  · next h => exact .plain (isPlain_of_isUnreserved h) rest
  · split
    · exact .plain (by decide) rest
    · exact .escape (upperHexDigit_spec (by omega)).1 (upperHexDigit_spec (by omega)).1 rest

/-! ## Whole texts -/

theorem formBytes_flatMap (bs : List UInt8) : formBytes (bs.flatMap urlByte) = bs := by
  induction bs with
  | nil => rfl
  | cons b bs ih => rw [List.flatMap_cons, formBytes_urlByte, ih]

theorem encoded_flatMap (bs : List UInt8) : Encoded (bs.flatMap urlByte) := by
  induction bs with
  | nil => exact .nil
  | cons b bs ih => exact encoded_urlByte b ih

theorem toList_loop (bs : ByteArray) (i : Nat) (r : List UInt8) :
    ByteArray.toList.loop bs i r = r.reverse ++ bs.data.toList.drop i := by
  fun_induction ByteArray.toList.loop bs i r with
  | case1 i r h ih =>
    have hget : bs.get! i = bs.data.toList[i] := by
      simp [ByteArray.get!, getElem!_pos bs.data i h]
    rw [ih, List.drop_eq_getElem_cons h, hget]
    simp
  | case2 i r h =>
    have hdone : bs.data.toList.length ≤ i := Nat.le_of_not_lt h
    rw [List.drop_eq_nil_of_le hdone, List.append_nil]

theorem toByteArray_toList (bs : ByteArray) : bs.toList.toByteArray = bs := by
  have hlist : bs.toList = bs.data.toList := by
    rw [ByteArray.toList, toList_loop, List.reverse_nil, List.nil_append, List.drop_zero]
  apply ByteArray.ext
  rw [hlist]
  exact Array.toList_inj.1 List.toList_data_toByteArray

theorem formDecode?_urlEncode (s : String) : formDecode? (urlEncode s) = some s := by
  rw [formDecode?, urlEncode, String.toList_ofList, formBytes_flatMap, toByteArray_toList, String.fromUTF8?]
  exact dif_pos s.isValidUTF8

example : urlEncode "a b&c=d/é" = "a+b%26c%3Dd%2F%C3%A9" := by decide +kernel

end Text

open Text

/-- Text in an address holds plain characters and escapes alone, and form decoding gives back exactly the text. No other
text is encoded alike. -/
theorem Renderer.url_encode_reversible (kind : ScalarKind) (text : String) :
    ∃ encoded, Renderer.formats kind text (some "url-encode") = .ok encoded ∧
      Encoded encoded.toList ∧ formDecode? encoded = some text ∧
      ∀ other, Renderer.formats kind other (some "url-encode") = .ok encoded → other = text := by
  refine ⟨urlEncode text, rfl, ?_, formDecode?_urlEncode text, fun other heq => ?_⟩
  · rw [urlEncode, String.toList_ofList]
    exact encoded_flatMap _
  · have hsame : urlEncode other = urlEncode text := Except.ok.inj heq
    exact Option.some.inj ((formDecode?_urlEncode other).symm.trans (hsame ▸ formDecode?_urlEncode text))

end Stencil
