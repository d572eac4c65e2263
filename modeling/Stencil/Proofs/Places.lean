import Stencil.Proofs.Quoting
import Stencil.Proofs.Shifting
/-! Trees in other places. A tree is read wherever its text stands, with its regions there, and by any bound on the
number of steps that is enough for the text. -/

namespace Stencil

namespace Reader

/-! ## Bounds -/

/-- Two bounds on the number of steps that are enough, with `k` steps to spare, for texts of at most `ℓ` characters,
neither of which is larger than a third one. -/
structure Enough (top k ℓ n n' : Nat) : Prop where
  here : 16 * ℓ + k ≤ n
  there : 16 * ℓ + k ≤ n'
  here_le : n ≤ top
  there_le : n' ≤ top

namespace Enough

variable {top k k' ℓ ℓ' n n' : Nat}

theorem none (h : Enough 0 (k + 1) ℓ n n') : False := by
  have := h.here
  have := h.here_le
  omega

theorem succ (h : Enough (top + 1) (k + 1) ℓ n n') : ∃ m m', n = m + 1 ∧ n' = m' + 1 ∧ Enough top k ℓ m m' := by
  obtain ⟨h₁, h₂, h₃, h₄⟩ := h
  exact ⟨n - 1, n' - 1, by omega, by omega, by omega, by omega, by omega, by omega⟩

theorem of (h : Enough top k ℓ n n') (hk : 16 * ℓ' + k' ≤ 16 * ℓ + k) : Enough top k' ℓ' n n' :=
  ⟨hk.trans h.here, hk.trans h.there, h.here_le, h.there_le⟩

theorem symm (h : Enough top k ℓ n n') : Enough top k ℓ n' n := ⟨h.there, h.here, h.there_le, h.here_le⟩

end Enough

/-! ## Trees that have moved -/

/-- The same but for the places, which are as far behind the bytes `b` and `b'`. -/
abbrev Moved {α : Type} (shift : Nat → α → α) (b b' : Nat) (a a' : α) : Prop := shift b' a = shift b a'

variable {α : Type} {ℓ w z b b' : Nat} {T : List Char → List Char → Prop} {Q : α → α → Prop}

theorem between_moved {start start' stop stop' : Nat} (hs : start + b' = start' + b) (he : stop + b' = stop' + b) :
    Moved Span.shift b b' (.between start stop) (.between start' stop') := by
  have : stop - start = stop' - start' := by omega
  rw [Moved, Span.shift, Span.shift, Span.between, Span.between, hs, this]

/-! ## Decisions -/

/-- What starts with a token that reaches over no bracket that closes, starts with it in the other place. -/
theorem startsWith_closed {token : String} (ht : token.toList.dropLast.any isCloser = false) {c c' : Cursor}
    (h : Closed c.rest c'.rest) : c.startsWith token = c'.startsWith token := h.isPrefixOf_eq ht

/-- Whether a named argument is next, by tokens. -/
theorem startsNamed_eq (c : Cursor) : startsNamed c =
    (c.rest.head?.any startsName &&
      (['='].isPrefixOf ((c.rest.dropWhile continuesName).dropWhile Text.isBlank) &&
        !(['=', '='].isPrefixOf ((c.rest.dropWhile continuesName).dropWhile Text.isBlank)))) := by
  obtain ⟨_ | ⟨x, rest⟩, offset⟩ := c
  · rfl
  · refine congrArg (startsName x && ·) ?_
    dsimp only
    split
    · next h => rw [h]; rfl
    · next t hn h =>
      rw [h]
      cases t with
      | nil => rfl
      | cons y t =>
        have hy : '=' ≠ y := by
          rintro rfl
          exact hn t rfl
        simp [List.isPrefixOf, hy]
    · next hn =>
      cases ht : ((x :: rest).dropWhile continuesName).dropWhile Text.isBlank with
      | nil => rfl
      | cons y t =>
        have hy : '=' ≠ y := by
          rintro rfl
          exact hn t ht
        simp [List.isPrefixOf, hy]

theorem startsNamed_closed {c c' : Cursor} (h : Closed c.rest c'.rest) : startsNamed c = startsNamed c' := by
  have hsign := ((h.while_eq open_continuesName).1.while_eq open_isBlank).1
  rw [startsNamed_eq, startsNamed_eq, h.head?_eq, hsign.isPrefixOf_eq (t := ['=']) (by decide),
    hsign.isPrefixOf_eq (t := ['=', '=']) (by decide)]

theorem atBranchTag_closed {c c' : Cursor} (h : Closed c.rest c'.rest) : atBranchTag c = atBranchTag c' := by
  rw [atBranchTag, atBranchTag, startsWith_closed (by decide) h, startsWith_closed (by decide) h,
    startsWith_closed (by decide) h]

/-- Decisions by a token are the same in both places. -/
theorem Moves.startsWith_bind {token : String} (ht : token.toList.dropLast.any isCloser = false)
    {f f' : Bool → Reader α} (h : ∀ found, Moves ℓ w b b' Closed Q (f found) (f' found)) :
    Moves ℓ w b b' Closed Q (startsWith token >>= f) (startsWith token >>= f') := by
  intro c y d hc hb hr
  obtain ⟨v, hv, hs, ho, hy, hm⟩ := h (c.startsWith token) c y d hc hb hr
  refine ⟨v, hv, hs, ho, hy, fun d' o' hd hd' hoff => ?_⟩
  obtain ⟨y', hy', hyy'⟩ := hm d' o' hd hd' hoff
  refine ⟨y', ?_, hyy'⟩
  change f' ((Cursor.mk (v ++ d') o').startsWith token) ⟨v ++ d', o'⟩ = _
  rw [← startsWith_closed ht (c := c) (hs ▸ hd.append v), hy']

/-- Decisions by a character are the same in both places, if something is taken where it is next. -/
theorem Moves.startsWith_head (hT : Tail T) {token : String} {x : Char} (ht : token.toList = [x])
    {f f' : Bool → Reader α} (hw : 1 ≤ z) (hle : w ≤ z) (htrue : Moves ℓ z b b' T Q (f true) (f' true))
    (hfalse : Moves ℓ w b b' T Q (f false) (f' false)) :
    Moves ℓ w b b' T Q (startsWith token >>= f) (startsWith token >>= f') := by
  intro c y d hc hb hr
  change f (c.startsWith token) c = _ at hr
  cases hx : c.startsWith token with
  | true =>
    rw [hx] at hr
    obtain ⟨v, hv, hs, ho, hy, hm⟩ := htrue c y d hc hb hr
    refine ⟨v, hv.mono hle, hs, ho, hy, fun d' o' hd hd' hoff => ?_⟩
    obtain ⟨y', hy', hyy'⟩ := hm d' o' hd hd' hoff
    refine ⟨y', ?_, hyy'⟩
    obtain ⟨z, v, rfl⟩ := List.exists_cons_of_ne_nil (hv.1 hw)
    have hx' : (Cursor.mk (z :: v ++ d') o').startsWith token = true := by
      rw [Cursor.startsWith, ht, isPrefixOf_singleton] at hx ⊢
      rw [hs] at hx
      exact hx
    change f' ((Cursor.mk (z :: v ++ d') o').startsWith token) _ = _
    rw [hx', hy']
  | false =>
    rw [hx] at hr
    obtain ⟨v, hv, hs, ho, hy, hm⟩ := hfalse c y d hc hb hr
    refine ⟨v, hv, hs, ho, hy, fun d' o' hd hd' hoff => ?_⟩
    obtain ⟨y', hy', hyy'⟩ := hm d' o' hd hd' hoff
    refine ⟨y', ?_, hyy'⟩
    have hx' : (Cursor.mk (v ++ d') o').startsWith token = false :=
      refused_head hT ht (hT.append v hd) (by rw [← hs]; exact hx)
    change f' ((Cursor.mk (v ++ d') o').startsWith token) _ = _
    rw [hx', hy']

end Reader

end Stencil
