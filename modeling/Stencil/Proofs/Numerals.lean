import Mathlib.Data.List.Forall2
import Mathlib.Data.List.Induction
import Stencil.Decimal.Reader
/-! How whole numbers are spelled. A text is read as a number if it is a sign or none, some zeros, and the digits of the
number. One of the spellings of a number is the plain one, in which it is written; all others are longer. -/

namespace Stencil.Decimal

/-! ## Digits -/

theorem digit_lt_ten {c : Char} (h : c.isDigit = true) : c.toNat - '0'.toNat < 10 := by
  have hhigh : c.toNat ≤ 57 := (Char.isDigit_iff_toNat.mp h).2
  change c.toNat - 48 < 10
  omega

theorem toDigits_of_isDigit {c : Char} (h : c.isDigit = true) : Nat.toDigits 10 (c.toNat - '0'.toNat) = [c] := by
  rw [Nat.toDigits_of_lt_base (digit_lt_ten h)]
  refine congrArg (fun d => [d]) (Char.toNat_inj.mp ?_)
  rw [Nat.toNat_digitChar_of_lt_ten (digit_lt_ten h)]
  exact Nat.add_sub_cancel' (Char.isDigit_iff_toNat.mp h).1

/-- Digits are zeros and then those of the number that they stand for. -/
theorem eq_zeros_append_toDigits {cs : List Char} (hne : cs ≠ []) (h : ∀ c ∈ cs, c.isDigit = true) :
    ∃ zeros, cs = List.replicate zeros '0' ++ Nat.toDigits 10 (Nat.ofDigitChars 10 cs 0) := by
  induction cs using List.reverseRecOn with
  | nil => exact absurd rfl hne
  | append_singleton cs c ih =>
    obtain ⟨hcs, hc⟩ := List.forall_mem_append.mp h
    have hc := hc c List.mem_cons_self
    rw [Nat.ofDigitChars_append, Nat.ofDigitChars_cons, Nat.ofDigitChars_nil]
    by_cases hnil : cs = []
    · subst hnil
      exact ⟨0, by simpa using (toDigits_of_isDigit hc).symm⟩
    obtain ⟨zeros, hz⟩ := ih hnil hcs
    generalize Nat.ofDigitChars 10 cs 0 = n at hz
    by_cases hn : n = 0
    · -- so far there are only zeros, of which the last one joins those in front
      subst hn
      refine ⟨zeros + 1, ?_⟩
      rw [Nat.mul_zero, Nat.zero_add, toDigits_of_isDigit hc, hz, Nat.toDigits_zero, List.replicate_succ']
    · refine ⟨zeros, ?_⟩
      rw [← Nat.toDigits_append_toDigits (by decide) (Nat.pos_of_ne_zero hn) (digit_lt_ten hc), toDigits_of_isDigit hc,
        ← List.append_assoc, ← hz]

theorem isDigit_of_mem {zeros n : Nat} {c : Char} (h : c ∈ List.replicate zeros '0' ++ Nat.toDigits 10 n) :
    c.isDigit = true := by
  rcases List.mem_append.mp h with h | h
  · rw [(List.mem_replicate.mp h).2]
    decide
  · exact Nat.isDigit_of_mem_toDigits (by decide) (by decide) h

theorem digits?_eq_some_iff {cs : List Char} {n : Nat} :
    digits? cs = some n ↔ ∃ zeros, cs = List.replicate zeros '0' ++ Nat.toDigits 10 n := by
  constructor
  · intro h
    unfold digits? at h
    split at h
    · cases h
    · rename_i hd
      cases h
      rw [Bool.or_eq_true, not_or, Bool.not_eq_true, List.isEmpty_eq_false_iff, Bool.not_eq_true,
        Bool.not_eq_false', List.all_eq_true] at hd
      exact eq_zeros_append_toDigits hd.1 hd.2
  · rintro ⟨zeros, rfl⟩
    have hne : (List.replicate zeros '0' ++ Nat.toDigits 10 n).isEmpty = false :=
      List.isEmpty_eq_false_iff.mpr (List.append_ne_nil_of_right_ne_nil _ Nat.toDigits_ne_nil)
    have hall : (List.replicate zeros '0' ++ Nat.toDigits 10 n).all Char.isDigit = true :=
      List.all_eq_true.mpr fun _ => isDigit_of_mem
    rw [digits?, hne, hall]
    refine congrArg some (?_ : Nat.ofDigitChars 10 (List.replicate zeros '0' ++ Nat.toDigits 10 n) 0 = n)
    rw [Nat.ofDigitChars_append, Nat.ofDigitChars_replicate_zero, Nat.mul_zero, Nat.ofDigitChars_ten_toDigits]

/-! ## Numerals -/

/-- What stands in front of the digits of a number. -/
inductive Sign where
  | none | plus | minus
deriving DecidableEq, Repr

def Sign.chars : Sign → List Char
  | none => []
  | plus => ['+']
  | minus => ['-']

/-- A whole number as it is spelled: a sign or none, some zeros, and the digits of its size. -/
structure Numeral where
  sign : Sign
  zeros : Nat
  size : Nat
deriving DecidableEq, Repr

namespace Numeral

def chars (k : Numeral) : List Char := k.sign.chars ++ (List.replicate k.zeros '0' ++ Nat.toDigits 10 k.size)

def text (k : Numeral) : String := String.ofList k.chars

def value (k : Numeral) : Int :=
  match k.sign with
  | .none | .plus => k.size
  | .minus => -k.size

/-- Whether the number is one of 64 bits with a sign. -/
def IsInt64 (k : Numeral) : Prop := -Int.pow 2 63 ≤ k.value ∧ k.value < Int.pow 2 63

/-- Whether the number is spelled without a plus sign, without zeros in front, and without a minus sign if it is zero. -/
def IsPlain (k : Numeral) : Prop := k.sign ≠ .plus ∧ k.zeros = 0 ∧ (k.sign = .minus → k.size ≠ 0)

/-- The plain spelling of the same number. -/
def plain (k : Numeral) : Numeral := ⟨if k.sign = .minus ∧ k.size ≠ 0 then .minus else .none, 0, k.size⟩

variable {k : Numeral}

theorem toString_value (k : Numeral) : toString k.value = k.plain.text := by
  have hdigits (n : Nat) : toString (n : Int) = (Numeral.mk .none 0 n).text := Nat.toString_eq_ofList_toDigits
  obtain ⟨sign, zeros, size⟩ := k
  cases sign with
  | none | plus => exact hdigits size
  | minus =>
    cases size with
    | zero =>
      rw [plain, if_neg (fun h => h.2 rfl)]
      exact hdigits 0
    | succ n =>
      change "-" ++ toString (n + 1) = _
      rw [Nat.toString_eq_ofList_toDigits]
      exact String.ofList_append.symm

theorem plain_eq (h : k.IsPlain) : k.plain = k := by
  obtain ⟨sign, zeros, size⟩ := k
  obtain ⟨hsign, rfl, hsize⟩ := h
  cases sign with
  | none => rfl
  | plus => exact absurd rfl hsign
  | minus =>
    rw [plain, if_pos ⟨rfl, hsize rfl⟩]

/-- The plain spelling is the shortest. -/
theorem length_plain_lt (h : ¬k.IsPlain) : k.plain.chars.length < k.chars.length := by
  obtain ⟨sign, zeros, size⟩ := k
  simp only [plain, chars, List.length_append, List.length_replicate]
  cases sign with
  | none =>
    have hz : zeros ≠ 0 := fun hz => h ⟨nofun, hz, nofun⟩
    simp [Sign.chars]
    omega
  | plus =>
    simp [Sign.chars]
    omega
  | minus =>
    by_cases hs : size = 0
    · simp [hs, Sign.chars]
    · have hz : zeros ≠ 0 := fun hz => h ⟨nofun, hz, fun _ => hs⟩
      simp [hs, Sign.chars]
      omega

end Numeral

/-- Behind a sign, a number is read from zeros and digits. -/
theorem read_behind_iff (sign : Sign) {low high n : Int} {cs : List Char} :
    (((fun size => (Numeral.mk sign 0 size).value) <$> digits? cs).bind fun n =>
        if low ≤ n ∧ n ≤ high then some n else none) = some n ↔
      (∃ k : Numeral, k.chars = sign.chars ++ cs ∧ k.sign = sign ∧ k.value = n) ∧ low ≤ n ∧ n ≤ high := by
  constructor
  · intro h
    obtain ⟨m, hm, h⟩ := Option.bind_eq_some_iff.mp h
    split at h
    · rename_i hin
      cases h
      obtain ⟨size, hd, rfl⟩ := Option.map_eq_some_iff.mp hm
      obtain ⟨zeros, rfl⟩ := digits?_eq_some_iff.mp hd
      exact ⟨⟨⟨sign, zeros, size⟩, rfl, rfl, rfl⟩, hin⟩
    · cases h
  · rintro ⟨⟨⟨_, zeros, size⟩, hchars, rfl, rfl⟩, hin⟩
    rw [digits?_eq_some_iff.mpr ⟨zeros, (List.append_cancel_left hchars).symm⟩]
    exact if_pos hin

/-- A whole number is read from the texts that spell it. -/
theorem readInt?_eq_some_iff {low high n : Int} {s : String} :
    readInt? low high s = some n ↔ (∃ k : Numeral, k.text = s ∧ k.value = n) ∧ low ≤ n ∧ n ≤ high := by
  unfold readInt?
  constructor
  · intro h
    have hspelled {sign : Sign} {cs : List Char} (hs : s.toList = sign.chars ++ cs)
        (h : (∃ k : Numeral, k.chars = sign.chars ++ cs ∧ k.sign = sign ∧ k.value = n) ∧ low ≤ n ∧ n ≤ high) :
        (∃ k : Numeral, k.text = s ∧ k.value = n) ∧ low ≤ n ∧ n ≤ high := by
      obtain ⟨⟨k, hk, -, hn⟩, hin⟩ := h
      exact ⟨⟨k, String.toList_inj.mp (String.toList_ofList.trans (hk.trans hs.symm)), hn⟩, hin⟩
    dsimp only at h
    split at h
    · exact hspelled ‹s.toList = _› ((read_behind_iff .plus).mp h)
    · exact hspelled ‹s.toList = _› ((read_behind_iff .minus).mp h)
    · exact hspelled rfl ((read_behind_iff .none).mp h)
  · rintro ⟨⟨⟨sign, zeros, size⟩, rfl, rfl⟩, hin⟩
    have hread := (read_behind_iff sign).mpr ⟨⟨⟨sign, zeros, size⟩, rfl, rfl, rfl⟩, hin⟩
    rw [Numeral.text, String.toList_ofList, Numeral.chars]
    cases sign with
    | plus | minus => exact hread
    | none =>
      -- a digit is no sign
      dsimp only
      split
      · have hmem := isDigit_of_mem (‹Sign.none.chars ++ _ = _› ▸ List.mem_cons_self)
        cases hmem
      · have hmem := isDigit_of_mem (‹Sign.none.chars ++ _ = _› ▸ List.mem_cons_self)
        cases hmem
      · exact hread

theorem readInt64?_eq_some_iff {n : Int} {s : String} :
    readInt64? s = some n ↔ ∃ k : Numeral, k.text = s ∧ k.value = n ∧ k.IsInt64 := by
  rw [readInt64?, readInt?_eq_some_iff]
  constructor
  · rintro ⟨⟨k, hk, rfl⟩, hlow, hhigh⟩
    exact ⟨k, hk, rfl, hlow, Int.lt_of_le_sub_one hhigh⟩
  · rintro ⟨k, hk, rfl, hlow, hhigh⟩
    exact ⟨⟨k, hk, rfl⟩, hlow, Int.le_sub_one_of_lt hhigh⟩

example : readInt64? "-007" = some (-7) ∧ readInt64? "9223372036854775807" = some 9223372036854775807 ∧
    readInt64? "9223372036854775808" = none := by decide

/-! ## Plain spellings -/

/-- A text that spells a whole number of 64 bits becomes the plain spelling of the number, and any other text stays. -/
inductive Normalized : String → String → Prop where
  | number (k : Numeral) (range : k.IsInt64) : Normalized k.text k.plain.text
  | other {s : String} (h : ∀ k : Numeral, k.IsInt64 → k.text ≠ s) : Normalized s s

/-- What a text becomes is what is written for the number that is read from it, if there is one. -/
theorem normalized_iff {s t : String} : Normalized s t ↔ t = ((readInt64? s).map toString).getD s := by
  cases hs : readInt64? s with
  | some n =>
    obtain ⟨k, rfl, rfl, hk⟩ := readInt64?_eq_some_iff.mp hs
    rw [Option.map_some, Option.getD_some, k.toString_value]
    constructor
    · intro h
      generalize hkk : k.text = s at h hs
      cases h with
      | number k' hk' =>
        have hread := readInt64?_eq_some_iff.mpr ⟨k', rfl, rfl, hk'⟩
        rw [← k.toString_value, ← k'.toString_value, Option.some.inj (hread.symm.trans hs)]
      | other h => exact absurd hkk (h k hk)
    · rintro rfl
      exact .number k hk
  | none =>
    have hnone (k : Numeral) (hk : k.IsInt64) : k.text ≠ s := by
      rintro rfl
      cases hs.symm.trans (readInt64?_eq_some_iff.mpr ⟨k, rfl, rfl, hk⟩)
    constructor
    · intro h
      cases h with
      | number k hk => exact absurd rfl (hnone k hk)
      | other => rfl
    · rintro rfl
      exact .other hnone

namespace Normalized

variable {s t : String}

theorem length_lt (h : Normalized s t) (hne : t ≠ s) : t.length < s.length := by
  cases h with
  | number k =>
    rw [Numeral.text, Numeral.text, String.length_ofList, String.length_ofList]
    refine k.length_plain_lt fun hk => hne ?_
    rw [Numeral.plain_eq hk]
  | other => exact absurd rfl hne

/-- A text stays as it is if it does not spell a number of 64 bits other than plainly. -/
theorem self_iff : Normalized s s ↔ ∀ k : Numeral, k.IsInt64 → k.text = s → k.IsPlain := by
  constructor
  · rintro h k hk rfl
    have hplain : k.text = k.plain.text := (normalized_iff.mp h).trans (normalized_iff.mp (.number k hk)).symm
    by_contra hne
    have hlt := k.length_plain_lt hne
    rw [String.ofList_inj.mp hplain] at hlt
    exact Nat.lt_irrefl _ hlt
  · intro h
    by_cases hspelled : ∃ k : Numeral, k.IsInt64 ∧ k.text = s
    · obtain ⟨k, hk, rfl⟩ := hspelled
      have hnumber := Normalized.number k hk
      rwa [Numeral.plain_eq (h k hk rfl)] at hnumber
    · exact .other fun k hk hs => hspelled ⟨k, hk, hs⟩

variable {ss ts : List String}

theorem join_length_lt (h : List.Forall₂ Normalized ss ts) :
    ts = ss ∨ (String.join ts).length < (String.join ss).length := by
  induction h with
  | nil => exact .inl rfl
  | @cons s t ss ts h _ ih =>
    rw [String.join_cons, String.join_cons, String.length_append, String.length_append]
    by_cases hne : t = s
    · subst hne
      exact ih.imp (congrArg (t :: ·)) (Nat.add_lt_add_left · _)
    · right
      have hlt := h.length_lt hne
      rcases ih with rfl | ih
      · exact Nat.add_lt_add_right hlt _
      · exact Nat.add_lt_add hlt ih

/-- Texts stay as they are together if each of them does. -/
theorem join_eq_iff (h : List.Forall₂ Normalized ss ts) : String.join ts = String.join ss ↔ ∀ s ∈ ss, Normalized s s := by
  constructor
  · intro hjoin
    rcases join_length_lt h with rfl | hlt
    · exact List.forall₂_same.mp h
    · rw [hjoin] at hlt
      exact absurd hlt (Nat.lt_irrefl _)
  · intro hall
    have hsame : ts = ss := by
      induction h with
      | nil => rfl
      | @cons s t ss ts h _ ih =>
        obtain ⟨hs, hss⟩ := List.forall_mem_cons.mp hall
        rw [ih hss, normalized_iff.mp h, ← normalized_iff.mp hs]
    rw [hsame]

end Normalized

end Stencil.Decimal
