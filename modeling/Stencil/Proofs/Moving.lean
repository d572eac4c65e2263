import Mathlib.Data.List.TakeWhile
import Stencil.Proofs.Ahead
import Stencil.Proofs.Taking
/-! Readers in other places. What a reader takes off the front of a text, it takes wherever that text stands, if
what comes behind does not go on with it. -/

namespace Stencil

open Reader

/-! ## What comes behind -/

/-- A bracket that closes. -/
def isCloser (c : Char) : Bool := c == ')' || c == ']' || c == '\x7d'

theorem eq_of_isCloser {k : Char} (h : isCloser k = true) : k = ')' ∨ k = ']' ∨ k = '\x7d' := by
  simpa [isCloser, or_assoc] using h

/-- What holds of no bracket that closes. -/
def Open (p : Char → Bool) : Prop := ∀ k, isCloser k = true → p k = false

theorem open_isBlank : Open Text.isBlank := fun k hk => by obtain rfl | rfl | rfl := eq_of_isCloser hk <;> rfl

theorem open_continuesName : Open continuesName := fun k hk => by obtain rfl | rfl | rfl := eq_of_isCloser hk <;> rfl

/-- Two texts that are the same as far as a bracket that closes, or further. -/
def Closed (d d' : List Char) : Prop := ∃ p y y', d = p ++ y ∧ d' = p ++ y' ∧ ∃ k ∈ p, isCloser k = true

/-- What may come behind a text that is read, in one place and in another. There, reading does not go on because
of a character that is not next here. -/
structure Tail (T : List Char → List Char → Prop) : Prop where
  append : ∀ p {d d'}, T d d' → T (p ++ d) (p ++ d')
  head : ∀ {d d'}, T d d' → ∀ x ∈ d'.head?, d.head? = some x
  ink : ∀ {d d'}, T d d' → ∀ x ∈ (d'.dropWhile Text.isBlank).head?, (d.dropWhile Text.isBlank).head? = some x

namespace Closed

variable {d d' : List Char}

theorem symm : Closed d d' → Closed d' d
  | ⟨p, y, y', h, h', hp⟩ => ⟨p, y', y, h', h, hp⟩

theorem append (q : List Char) : Closed d d' → Closed (q ++ d) (q ++ d')
  | ⟨p, y, y', h, h', k, hk, hc⟩ =>
    ⟨q ++ p, y, y', by rw [h, List.append_assoc], by rw [h', List.append_assoc], k, List.mem_append_right q hk, hc⟩

theorem head?_eq : Closed d d' → d.head? = d'.head?
  | ⟨[], _, _, _, _, _, hk, _⟩ => nomatch hk
  | ⟨_ :: _, _, _, h, h', _⟩ => by rw [h, h']; rfl

theorem ne_nil (h : Closed d d') : d ≠ [] := by
  obtain ⟨p, y, y', rfl, rfl, k, hk, -⟩ := h
  exact List.append_ne_nil_of_left_ne_nil (List.ne_nil_of_mem hk) y

/-- What is no bracket that closes ends in the same place. -/
theorem while_eq {p : Char → Bool} (hp : Open p) : Closed d d' →
    Closed (d.dropWhile p) (d'.dropWhile p) ∧ d.takeWhile p = d'.takeWhile p := by
  rintro ⟨q, y, y', rfl, rfl, k, hk, hc⟩
  induction q with
  | nil => cases hk
  | cons x q ih =>
    by_cases hx : p x = true
    · have hq : k ∈ q := (List.mem_cons.mp hk).resolve_left fun h => by rw [← h, hp k hc] at hx; cases hx
      simpa [hx] using ih hq
    · simp only [List.cons_append, List.dropWhile_cons_of_neg hx, List.takeWhile_cons_of_neg hx]
      exact ⟨⟨x :: q, y, y', rfl, rfl, k, hk, hc⟩, trivial⟩

/-- A token does not reach over a bracket that closes. -/
theorem isPrefixOf_eq {t : List Char} (ht : t.dropLast.any isCloser = false) (h : Closed d d') :
    t.isPrefixOf d = t.isPrefixOf d' := by
  obtain ⟨q, y, y', rfl, rfl, k, hk, hc⟩ := h
  induction t generalizing q with
  | nil => rfl
  | cons a t ih =>
    cases q with
    | nil => cases hk
    | cons x q =>
      simp only [List.cons_append, List.isPrefixOf]
      cases t with
      | nil => rfl
      | cons b t =>
        rw [List.dropLast_cons_cons, List.any_cons, Bool.or_eq_false_iff] at ht
        by_cases hax : a = x
        · have hq : k ∈ q := (List.mem_cons.mp hk).resolve_left fun h => by rw [h, ← hax, ht.1] at hc; cases hc
          rw [ih ht.2 q hq]
        · rw [beq_eq_false_iff_ne.mpr hax, Bool.false_and, Bool.false_and]

theorem tail : Tail Closed where
  append q _ _ h := h.append q
  head h _ hx := h.head?_eq.trans hx
  ink h _ hx := (h.while_eq open_isBlank).1.head?_eq.trans hx

end Closed

/-- Cutting a text off stops reading there. -/
theorem tail_prefix : Tail fun d d' => d' <+: d where
  append p _ _ h := List.prefix_append_right_inj p |>.mpr h
  head := by
    rintro _ d' ⟨x, rfl⟩ c hc
    cases d' with
    | nil => cases hc
    | cons => exact hc
  ink := by
    rintro _ d' ⟨x, rfl⟩ c hc
    rw [List.dropWhile_append]
    cases hd : d'.dropWhile Text.isBlank with
    | nil => rw [hd] at hc; cases hc
    | cons => rwa [hd] at hc

theorem tail_eq : Tail Eq where
  append p _ _ h := congrArg (p ++ ·) h
  head h _ hx := h ▸ hx
  ink h _ hx := h ▸ hx

/-! ## Readers -/

namespace Reader

/-- What comes before is read before what comes behind. -/
theorem bind_ok {α β : Type} {r : Reader α} {f : α → Reader β} {c d : Cursor} {y : β}
    (h : (r >>= f) c = .ok (y, d)) : ∃ a e, r c = .ok (a, e) ∧ f a e = .ok (y, d) := by
  rw [bind_apply] at h
  cases hx : r c with
  | error e => rw [hx] at h; cases h
  | ok p => exact ⟨p.1, p.2, rfl, by rwa [hx] at h⟩

theorem bind_eq_of_ok {α β : Type} {r : Reader α} {c d : Cursor} {a : α} (h : r c = .ok (a, d)) (f : α → Reader β) :
    (r >>= f) c = f a d := by
  rw [bind_apply, h]
  rfl

/-- At least so much is in a text: one character, or a bracket that closes. -/
def Weighs (w : Nat) (v : List Char) : Prop := (1 ≤ w → v ≠ []) ∧ (2 ≤ w → ∃ k ∈ v, isCloser k = true)

theorem Weighs.mono {w z : Nat} {v : List Char} (h : Weighs w v) (hw : z ≤ w) : Weighs z v :=
  ⟨fun h' => h.1 (Nat.le_trans h' hw), fun h' => h.2 (Nat.le_trans h' hw)⟩

theorem Weighs.left {w : Nat} {v : List Char} (h : Weighs w v) (v' : List Char) : Weighs w (v ++ v') := by
  refine ⟨fun hw => List.append_ne_nil_of_left_ne_nil (h.1 hw) v', fun hw => ?_⟩
  obtain ⟨k, hk, hc⟩ := h.2 hw
  exact ⟨k, List.mem_append_left _ hk, hc⟩

theorem Weighs.right {w : Nat} {v' : List Char} (v : List Char) (h : Weighs w v') : Weighs w (v ++ v') := by
  refine ⟨fun hw => List.append_ne_nil_of_right_ne_nil v (h.1 hw), fun hw => ?_⟩
  obtain ⟨k, hk, hc⟩ := h.2 hw
  exact ⟨k, List.mem_append_right _ hk, hc⟩

theorem Weighs.append {w z : Nat} {v v' : List Char} (h : Weighs w v) (h' : Weighs z v') :
    Weighs (max w z) (v ++ v') := by
  obtain hle | hle := Nat.le_total w z
  · rw [Nat.max_eq_right hle]
    exact h'.right v
  · rw [Nat.max_eq_left hle]
    exact h.left v'

theorem Weighs.nothing (v : List Char) : Weighs 0 v := ⟨nofun, nofun⟩

/-- What the first reader takes in front of one text, which has at least so much in it, the second one takes in
front of another text that `T` relates to it. What they give is related by `R`. The texts have at most `ℓ`
characters, and the places where they stand are as far behind the bytes `b` and `b'`. -/
def Moves {α : Type} (ℓ w b b' : Nat) (T : List Char → List Char → Prop) (R : α → α → Prop) (r r' : Reader α) : Prop :=
  ∀ c a d, c.rest.length ≤ ℓ → b ≤ c.offset → r c = .ok (a, d) → ∃ v, Weighs w v ∧ c.rest = v ++ d.rest ∧
    d.offset = c.offset + Text.byteLength v ∧ (∃ a', R a a') ∧
    ∀ d' o', T d.rest d' → (v ++ d').length ≤ ℓ → c.offset + b' = o' + b →
      ∃ a', r' ⟨v ++ d', o'⟩ = .ok (a', ⟨d', o' + Text.byteLength v⟩) ∧ R a a'

variable {α β : Type} {ℓ w z b b' : Nat} {T T' : List Char → List Char → Prop} {P R : α → α → Prop} {Q : β → β → Prop}
  {r r' : Reader α} {f f' : α → Reader β}

namespace Moves

theorem pure {a a' : α} (h : R a a') : Moves ℓ 0 b b' T R (pure a) (pure a') := by
  intro c x d _ _ hr
  cases hr
  exact ⟨[], .nothing _, rfl, rfl, ⟨a', h⟩, fun d' o' _ _ _ => ⟨a', rfl, h⟩⟩

theorem fail {fault : Fault} : Moves ℓ w b b' T R (Reader.fail fault) r' := nofun

theorem fail_bind {fault : Fault} {g : Reader β} : Moves ℓ w b b' T Q (Reader.fail fault >>= f) g := nofun

theorem mono (h : Moves ℓ w b b' T P r r') (hw : z ≤ w) (hR : ∀ a a', P a a' → R a a') :
    Moves ℓ z b b' T R r r' := by
  intro c a d hc hb hr
  obtain ⟨v, hv, hs, ho, ⟨x, hx⟩, hm⟩ := h c a d hc hb hr
  refine ⟨v, hv.mono hw, hs, ho, ⟨x, hR a x hx⟩, fun d' o' ht hd ho' => ?_⟩
  obtain ⟨a', hr', ha⟩ := hm d' o' ht hd ho'
  exact ⟨a', hr', hR a a' ha⟩

theorem lighter (h : Moves ℓ w b b' T R r r') (hw : z ≤ w) : Moves ℓ z b b' T R r r' := h.mono hw fun _ _ h => h

/-- A reader and another one behind it, in front of which what the first one asks for comes behind. -/
theorem bind_of (hT : ∀ v d d', Weighs z v → T' d d' → T (v ++ d) (v ++ d')) (h : Moves ℓ w b b' T P r r')
    (hf : ∀ ℓ' a a', ℓ' ≤ ℓ → (1 ≤ w → ℓ' < ℓ) → P a a' → Moves ℓ' z b b' T' Q (f a) (f' a')) :
    Moves ℓ (max w z) b b' T' Q (r >>= f) (r' >>= f') := by
  intro c y d hc hb hr
  obtain ⟨a, e, hx, hr⟩ := bind_ok hr
  obtain ⟨v, hv, hs, ho, ⟨x, hax⟩, hm⟩ := h c a e hc hb hx
  have hlen : v.length + e.rest.length ≤ ℓ := by rwa [hs, List.length_append] at hc
  -- the part behind has that many characters less
  have hless : 1 ≤ w → ℓ - v.length < ℓ := fun hw => by
    have hpos := List.length_pos_iff.mpr (hv.1 hw)
    omega
  have hbehind {a'} (ha : P a a') := hf (ℓ - v.length) a a' (Nat.sub_le _ _) hless ha e y d (by omega)
    (ho ▸ Nat.le_add_right_of_le hb) hr
  obtain ⟨u, hu, hs', ho', hy, -⟩ := hbehind hax
  refine ⟨v ++ u, hv.append hu, by rw [hs, hs', List.append_assoc],
    by rw [ho', ho, Text.byteLength_append, Nat.add_assoc], hy, fun d' o' ht hd hoff => ?_⟩
  obtain ⟨a', hr', ha⟩ := hm (u ++ d') o' (hs' ▸ hT u d.rest d' hu ht) (by rwa [List.append_assoc] at hd) hoff
  obtain ⟨u', -, hs'', -, -, hm'⟩ := hbehind ha
  obtain rfl : u = u' := List.append_cancel_right (hs'.symm.trans hs'')
  obtain ⟨y', hf', hyy'⟩ := hm' d' (o' + Text.byteLength v) ht
    (by rw [List.length_append, List.length_append] at hd; rw [List.length_append]; omega) (by omega)
  refine ⟨y', ?_, hyy'⟩
  rw [bind_apply, List.append_assoc, hr']
  change f' a' ⟨u ++ d', o' + Text.byteLength v⟩ = _
  rw [hf', Text.byteLength_append, Nat.add_assoc]

/-- One reader behind another. There is as much in the text as the second one takes. -/
theorem bind (hT : Tail T) (h : Moves ℓ z b b' T P r r')
    (hf : ∀ ℓ' a a', ℓ' ≤ ℓ → (1 ≤ z → ℓ' < ℓ) → P a a' → Moves ℓ' w b b' T Q (f a) (f' a')) :
    Moves ℓ w b b' T Q (r >>= f) (r' >>= f') :=
  (h.bind_of (fun v _ _ _ ht => hT.append v ht) hf).lighter (Nat.le_max_right _ _)

/-- One reader behind another. There is as much in the text as the first one takes. -/
theorem bind_left (hT : Tail T) (h : Moves ℓ w b b' T P r r')
    (hf : ∀ ℓ' a a', ℓ' ≤ ℓ → (1 ≤ w → ℓ' < ℓ) → P a a' → Moves ℓ' 0 b b' T Q (f a) (f' a')) :
    Moves ℓ w b b' T Q (r >>= f) (r' >>= f') :=
  (h.bind_of (fun v _ _ _ ht => hT.append v ht) hf).lighter (Nat.le_max_left _ _)

/-- In front of a bracket that closes, it does not matter what comes behind that. -/
theorem within (h : Moves ℓ w b b' Closed P r r')
    (hf : ∀ ℓ' a a', ℓ' ≤ ℓ → (1 ≤ w → ℓ' < ℓ) → P a a' → Moves ℓ' 2 b b' T Q (f a) (f' a')) :
    Moves ℓ 2 b b' T Q (r >>= f) (r' >>= f') :=
  (h.bind_of (fun v d d' hv _ => ⟨v, d, d', rfl, rfl, hv.2 (Nat.le_refl 2)⟩) hf).lighter (Nat.le_max_right _ _)

/-- One reader behind another, which takes the same whatever comes behind. -/
theorem free_bind (h : Moves ℓ z b b' (fun _ _ => True) P r r')
    (hf : ∀ ℓ' a a', ℓ' ≤ ℓ → (1 ≤ z → ℓ' < ℓ) → P a a' → Moves ℓ' w b b' T Q (f a) (f' a')) :
    Moves ℓ w b b' T Q (r >>= f) (r' >>= f') :=
  (h.bind_of (fun _ _ _ _ _ => trivial) hf).lighter (Nat.le_max_right _ _)

/-- A reader that takes the same whatever comes behind, and another one behind it. -/
theorem free_bind_left (h : Moves ℓ w b b' (fun _ _ => True) P r r')
    (hf : ∀ ℓ' a a', ℓ' ≤ ℓ → (1 ≤ w → ℓ' < ℓ) → P a a' → Moves ℓ' 0 b b' T Q (f a) (f' a')) :
    Moves ℓ w b b' T Q (r >>= f) (r' >>= f') :=
  (h.bind_of (fun _ _ _ _ _ => trivial) hf).lighter (Nat.le_max_left _ _)

theorem map {g g' : α → β} (h : Moves ℓ w b b' T P r r') (hg : ∀ a a', P a a' → Q (g a) (g' a')) :
    Moves ℓ w b b' T Q (g <$> r) (g' <$> r') := by
  intro c y d hc hb hr
  change (r c >>= fun p => Except.ok (g p.1, p.2)) = _ at hr
  cases hx : r c with
  | error e => rw [hx] at hr; cases hr
  | ok p =>
    rw [hx] at hr
    cases hr
    obtain ⟨v, hv, hs, ho, ⟨x, hx⟩, hm⟩ := h c p.1 p.2 hc hb hx
    refine ⟨v, hv, hs, ho, ⟨g' x, hg _ _ hx⟩, fun d' o' ht hd hoff => ?_⟩
    obtain ⟨a', hr', ha⟩ := hm d' o' ht hd hoff
    refine ⟨g' a', ?_, hg _ _ ha⟩
    change (r' _ >>= fun p => Except.ok (g' p.1, p.2)) = _
    rw [hr']
    rfl

/-- Reading goes on with the offsets, which are as far behind the bytes. -/
theorem offset_bind {f f' : Nat → Reader β}
    (h : ∀ o o', o + b' = o' + b → Moves ℓ w b b' T Q (f o) (f' o')) :
    Moves ℓ w b b' T Q (offset >>= f) (offset >>= f') := by
  intro c y d hc hb hr
  obtain ⟨v, hv, hs, ho, hy, -⟩ := h c.offset (c.offset - b + b') (by omega) c y d hc hb hr
  refine ⟨v, hv, hs, ho, hy, fun d' o' ht hd hoff => ?_⟩
  obtain ⟨v', -, hs', -, -, hm⟩ := h c.offset o' hoff c y d hc hb hr
  obtain rfl : v = v' := List.append_cancel_right (hs.symm.trans hs')
  exact hm d' o' ht hd hoff

/-- What is next does not depend on what comes behind, if something is taken. -/
theorem peek_bind {f f' : Option Char → Reader β} (hw : 1 ≤ w) (h : ∀ o, Moves ℓ w b b' T Q (f o) (f' o)) :
    Moves ℓ w b b' T Q (peek? >>= f) (peek? >>= f') := by
  intro c y d hc hb hr
  obtain ⟨v, hv, hs, ho, hy, hm⟩ := h c.rest.head? c y d hc hb hr
  refine ⟨v, hv, hs, ho, hy, fun d' o' ht hd hoff => ?_⟩
  obtain ⟨x, v, rfl⟩ := List.exists_cons_of_ne_nil (hv.1 hw)
  rw [hs] at hm
  exact hm d' o' ht hd hoff

/-- Decisions that depend on what is next are the same in both places, as there is a bracket that closes behind. -/
theorem get_bind {f f' : Cursor → Reader β} (hsame : ∀ c c', Closed c.rest c'.rest → f' c = f' c')
    (h : ∀ c, Moves ℓ w b b' Closed Q (f c) (f' c)) :
    Moves ℓ w b b' Closed Q ((get : Reader Cursor) >>= f) (get >>= f') := by
  intro c y d hc hb hr
  obtain ⟨v, hv, hs, ho, hy, hm⟩ := h c c y d hc hb hr
  refine ⟨v, hv, hs, ho, hy, fun d' o' ht hd hoff => ?_⟩
  obtain ⟨y', hy', hyy'⟩ := hm d' o' ht hd hoff
  refine ⟨y', ?_, hyy'⟩
  change f' ⟨v ++ d', o'⟩ ⟨v ++ d', o'⟩ = _
  rw [← hsame c ⟨v ++ d', o'⟩ (hs ▸ ht.append v), hy']

end Moves

/-! ## Tokens, blanks and names -/

/-- A token that is not next in one place is not next in the other. -/
def Refused (T : List Char → List Char → Prop) (token : String) : Prop :=
  ∀ ⦃d d'⦄, T d d' → token.toList.isPrefixOf d = false → token.toList.isPrefixOf d' = false

theorem isPrefixOf_singleton (x : Char) (d : List Char) : [x].isPrefixOf d = true ↔ d.head? = some x := by
  cases d with
  | nil => simp
  | cons y d =>
    simp only [List.isPrefixOf, Bool.and_true, beq_iff_eq, List.head?_cons, Option.some.injEq]
    exact eq_comm

theorem refused_head (hT : Tail T) {token : String} {x : Char} (ht : token.toList = [x]) : Refused T token := by
  intro d d' h hd
  rw [ht, Bool.eq_false_iff, Ne, isPrefixOf_singleton] at hd ⊢
  exact fun hx => hd (hT.head h x hx)

theorem refused_closed {token : String} (ht : token.toList.dropLast.any isCloser = false) :
    Refused Closed token := fun _ _ h hd => by rwa [← h.isPrefixOf_eq ht]

theorem accept_ok {token : String} {c d : Cursor} {found : Bool} (h : accept token c = .ok (found, d)) :
    (found = true ∧ c.rest = token.toList ++ d.rest ∧ d.offset = c.offset + Text.byteLength token.toList) ∨
      (found = false ∧ d = c ∧ token.toList.isPrefixOf c.rest = false) := by
  rw [accept, Cursor.past?] at h
  split at h
  · next e he =>
    cases h
    split at he
    · next hp =>
      cases he
      exact .inl ⟨rfl, (List.prefix_iff_eq_append.mp (List.isPrefixOf_iff_prefix.mp hp)).symm, rfl⟩
    · cases he
  · next hn =>
    cases h
    split at hn
    · cases hn
    · next hp => exact .inr ⟨rfl, rfl, Bool.eq_false_iff.mpr hp⟩

theorem expect_ok {token : String} {c d : Cursor} (h : expect token c = .ok ((), d)) :
    c.rest = token.toList ++ d.rest ∧ d.offset = c.offset + Text.byteLength token.toList := by
  obtain ⟨found, e, hx, h⟩ := bind_ok h
  obtain ⟨rfl, hs, ho⟩ | ⟨rfl, -, -⟩ := accept_ok hx
  · cases h
    exact ⟨hs, ho⟩
  · cases h

theorem accept_append (token : String) (d : List Char) (offset : Nat) :
    accept token ⟨token.toList ++ d, offset⟩ = .ok (true, ⟨d, offset + Text.byteLength token.toList⟩) := by
  rw [accept, past?_append]

theorem accept_refused {token : String} {c : Cursor} (h : token.toList.isPrefixOf c.rest = false) :
    accept token c = .ok (false, c) := by
  rw [accept, Cursor.past?, if_neg (by simp [h])]

/-- A token that is not next in front of text that has so much in it is not next if something else comes behind. -/
def RefusedBehind (w : Nat) (T : List Char → List Char → Prop) (token : String) : Prop :=
  ∀ ⦃v d d'⦄, Weighs w v → T d d' → token.toList.isPrefixOf (v ++ d) = false → token.toList.isPrefixOf (v ++ d') = false

theorem Refused.behind {token : String} (h : Refused T token) (hT : Tail T) : RefusedBehind w T token :=
  fun _ _ _ _ ht hn => h (hT.append _ ht) hn

theorem refused_within {token : String} (ht : token.toList.dropLast.any isCloser = false) :
    RefusedBehind 2 T token :=
  fun v d d' hv _ hn => refused_closed ht ⟨v, d, d', rfl, rfl, hv.2 (Nat.le_refl 2)⟩ hn

/-- A token that is taken if it is next, and what is done in both cases. -/
theorem accept_bind {token : String} {f f' : Bool → Reader β} (ht : token.toList ≠ [])
    (hrefused : RefusedBehind w T token) (hw : ∀ v, Weighs z v → Weighs w (token.toList ++ v))
    (htrue : ∀ ℓ' < ℓ, Moves ℓ' z b b' T Q (f true) (f' true)) (hfalse : Moves ℓ w b b' T Q (f false) (f' false)) :
    Moves ℓ w b b' T Q (accept token >>= f) (accept token >>= f') := by
  intro c y d hc hb hr
  obtain ⟨found, e, hx, hf⟩ := bind_ok hr
  obtain ⟨rfl, hs, ho⟩ | ⟨rfl, rfl, hn⟩ := accept_ok hx
  · have hpos := List.length_pos_iff.mpr ht
    have hlen : token.toList.length + e.rest.length ≤ ℓ := by rwa [hs, List.length_append] at hc
    obtain ⟨v, hv, hs', ho', hy, hm⟩ := htrue (ℓ - token.toList.length) (by omega) e y d (by omega)
      (ho ▸ Nat.le_add_right_of_le hb) hf
    refine ⟨token.toList ++ v, hw v hv, by rw [hs, hs', List.append_assoc],
      by rw [ho', ho, Text.byteLength_append, Nat.add_assoc], hy, fun d' o' ht hd hoff => ?_⟩
    obtain ⟨y', hy', hyy'⟩ := hm d' (o' + Text.byteLength token.toList) ht
      (by rw [List.length_append, List.length_append] at hd; rw [List.length_append]; omega) (by omega)
    refine ⟨y', ?_, hyy'⟩
    rw [bind_apply, List.append_assoc, accept_append, Text.byteLength_append, ← Nat.add_assoc]
    exact hy'
  · obtain ⟨v, hv, hs, ho, hy, hm⟩ := hfalse e y d hc hb hf
    refine ⟨v, hv, hs, ho, hy, fun d' o' ht hd hoff => ?_⟩
    obtain ⟨y', hy', hyy'⟩ := hm d' o' ht hd hoff
    refine ⟨y', ?_, hyy'⟩
    rw [bind_apply, accept_refused (hrefused hv ht (hs ▸ hn))]
    exact hy'

theorem accept_moves (hT : Tail T) {token : String} (ht : token.toList ≠ []) (hrefused : Refused T token) :
    Moves ℓ 0 b b' T Eq (accept token) (accept token) := by
  have h : Moves ℓ 0 b b' T Eq (accept token >>= Pure.pure) (accept token >>= Pure.pure) :=
    accept_bind ht (hrefused.behind hT) (fun _ (_ : Weighs 0 _) => .nothing _) (fun _ _ => .pure rfl) (.pure rfl)
  rwa [bind_pure] at h

theorem expect_moves {token : String} (hw : Weighs w token.toList) :
    Moves ℓ w b b' T (fun _ _ => True) (expect token) (expect token) := by
  intro c a d hc hb hr
  obtain ⟨hs, ho⟩ := expect_ok hr
  refine ⟨token.toList, hw, hs, ho, ⟨(), trivial⟩, fun d' o' _ _ _ => ⟨(), ?_, trivial⟩⟩
  rw [expect, bind_apply, accept_append]
  rfl

theorem expect_one {token : String} {x : Char} (ht : token.toList = [x]) :
    Moves ℓ 1 b b' T (fun _ _ => True) (expect token) (expect token) :=
  expect_moves ⟨fun _ => ht ▸ List.cons_ne_nil x [], nofun⟩

theorem expect_closer {token : String} {x : Char} (ht : token.toList = [x]) (hx : isCloser x = true) :
    Moves ℓ 2 b b' T (fun _ _ => True) (expect token) (expect token) :=
  expect_moves ⟨fun _ => ht ▸ List.cons_ne_nil x [], fun _ => ⟨x, ht ▸ List.mem_singleton_self x, hx⟩⟩

/-- Where no more of them are in one place, there are no more in the other. -/
theorem takeWhile_tail (hT : Tail T) (p : Char → Bool) {d d' : List Char} (h : T d d')
    (hd : ∀ x ∈ d.head?, p x = false) {v : List Char} (hv : ∀ x ∈ v, p x = true) :
    (v ++ d').takeWhile p = v ∧ (v ++ d').dropWhile p = d' := by
  have hd' : ∀ x ∈ d'.head?, p x = false := fun x hx => hd x (hT.head h x hx)
  rw [List.takeWhile_append_of_pos hv, List.dropWhile_append_of_pos hv]
  cases d' with
  | nil => simp
  | cons x d' =>
    have hx : ¬p x = true := by simp [hd' x rfl]
    rw [List.takeWhile_cons_of_neg hx, List.dropWhile_cons_of_neg hx, List.append_nil]
    exact ⟨rfl, rfl⟩

theorem head?_dropWhile (p : Char → Bool) (c : List Char) : ∀ x ∈ (c.dropWhile p).head?, p x = false := by
  intro x hx
  have h := List.head?_dropWhile_not p c
  rw [Option.mem_def.mp hx] at h
  simpa using h

theorem takeWhile_moves (hT : Tail T) (p : Char → Bool) : Moves ℓ 0 b b' T Eq (takeWhile p) (takeWhile p) := by
  intro c a d hc hb hr
  cases hr
  refine ⟨c.rest.takeWhile p, .nothing _, List.takeWhile_append_dropWhile.symm, rfl, ⟨_, rfl⟩, fun d' o' ht _ _ => ?_⟩
  obtain ⟨htake, hdrop⟩ := takeWhile_tail hT p ht (head?_dropWhile p c.rest)
    (v := c.rest.takeWhile p) fun x hx => List.mem_takeWhile_imp hx
  refine ⟨_, ?_, rfl⟩
  rw [takeWhile, htake, hdrop]
  rfl

theorem blanks_moves (hT : Tail T) : Moves ℓ 0 b b' T (fun _ _ => True) blanks blanks :=
  .bind hT (takeWhile_moves hT _) fun _ _ _ _ _ _ => .pure trivial

/-- Takes the characters that `p` admits, provided that `start` admits the first one. -/
def word (start p : Char → Bool) (fault : Fault) : Reader String := fun c =>
  match c.rest with
  | [] => .error ⟨fault, c.offset⟩
  | x :: rest =>
    if start x then .ok (String.ofList ((x :: rest).takeWhile p), c.after ((x :: rest).takeWhile p) ((x :: rest).dropWhile p))
    else .error ⟨fault, c.offset⟩

theorem name_eq (fault : Fault) : name fault = word startsName continuesName fault := by
  funext ⟨rest, offset⟩
  cases rest with
  | nil => rfl
  | cons x rest =>
    change (if startsName x then String.ofList <$> takeWhile continuesName else fail fault) _ = _
    dsimp only [word]
    split <;> rfl

/-- What `start` admits goes on as long as what `p` admits does. -/
theorem word_moves (hT : Tail T) {start p : Char → Bool} (hp : ∀ x, start x = true → p x = true) (fault : Fault) :
    Moves ℓ 1 b b' T Eq (word start p fault) (word start p fault) := by
  intro ⟨rest, offset⟩ s d hc hb hr
  cases rest with
  | nil => cases hr
  | cons x rest =>
    by_cases hx : start x = true
    · have hpx := hp x hx
      simp only [word, if_pos hx, List.takeWhile_cons_of_pos hpx, List.dropWhile_cons_of_pos hpx] at hr
      cases hr
      refine ⟨x :: rest.takeWhile p, ⟨fun _ => List.cons_ne_nil _ _, nofun⟩, ?_, rfl, ⟨_, rfl⟩, fun d' o' ht _ _ => ?_⟩
      · exact congrArg (x :: ·) List.takeWhile_append_dropWhile.symm
      · obtain ⟨htake, hdrop⟩ := takeWhile_tail hT p ht (head?_dropWhile p rest) (v := rest.takeWhile p)
          fun y hy => List.mem_takeWhile_imp hy
        refine ⟨_, ?_, rfl⟩
        simp only [word, List.cons_append, if_pos hx, List.takeWhile_cons_of_pos hpx, List.dropWhile_cons_of_pos hpx,
          htake, hdrop]
        rfl
    · simp only [word, if_neg hx] at hr
      cases hr

theorem name_moves (hT : Tail T) (fault : Fault) : Moves ℓ 1 b b' T Eq (name fault) (name fault) := by
  rw [name_eq]
  exact word_moves hT (fun _ => continuesName_of_startsName) _

theorem propertyName_digit {c : Cursor} {x : Char} (h : c.rest.head? = some x) (hx : x.isDigit = true) :
    propertyName c = word Char.isDigit Char.isDigit .expectedPropertyName c := by
  obtain ⟨_ | ⟨y, rest⟩, offset⟩ := c
  · cases h
  · cases h
    change (if x.isDigit then String.ofList <$> takeWhile Char.isDigit else name .expectedPropertyName) _ = _
    rw [if_pos hx]
    dsimp only [word]
    rw [if_pos hx]
    rfl

theorem propertyName_name {c : Cursor} (h : ∀ x ∈ c.rest.head?, x.isDigit = false) :
    propertyName c = name .expectedPropertyName c := by
  obtain ⟨_ | ⟨y, rest⟩, offset⟩ := c
  · rfl
  · change (if y.isDigit then String.ofList <$> takeWhile Char.isDigit else name .expectedPropertyName) _ = _
    rw [if_neg (by rw [h y rfl]; nofun)]

theorem propertyName_moves (hT : Tail T) : Moves ℓ 1 b b' T Eq propertyName propertyName := by
  intro c s d hc hb hr
  -- digits and names are told apart by their first characters, which are taken
  have hsame {r : Reader String} (h : Moves ℓ 1 b b' T Eq r r)
      (hp : ∀ c', c'.rest.head? = c.rest.head? → propertyName c' = r c') : ∃ v, Weighs 1 v ∧ c.rest = v ++ d.rest ∧
      d.offset = c.offset + Text.byteLength v ∧ (∃ s', s = s') ∧ ∀ d' o', T d.rest d' → (v ++ d').length ≤ ℓ →
        c.offset + b' = o' + b → ∃ s', propertyName ⟨v ++ d', o'⟩ = .ok (s', ⟨d', o' + Text.byteLength v⟩) ∧ s = s' := by
    obtain ⟨v, hv, hs, ho, hx, hm⟩ := h c s d hc hb ((hp c rfl).symm.trans hr)
    refine ⟨v, hv, hs, ho, hx, fun d' o' ht hd hoff => ?_⟩
    obtain ⟨x, v, rfl⟩ := List.exists_cons_of_ne_nil (hv.1 (Nat.le_refl 1))
    rw [hp ⟨x :: v ++ d', o'⟩ (by rw [hs]; rfl)]
    exact hm d' o' ht hd hoff
  by_cases hd : ∃ x, c.rest.head? = some x ∧ x.isDigit = true
  · obtain ⟨x, hx, hd⟩ := hd
    exact hsame (word_moves hT (fun _ h => h) _) fun c' hc' => propertyName_digit (hc'.trans hx) hd
  · refine hsame (name_moves hT _) fun c' hc' => propertyName_name fun x hx => ?_
    exact Bool.eq_false_iff.mpr fun hd' => hd ⟨x, hc' ▸ hx, hd'⟩

/-! ## Operators -/

/-- A reader that may fail, if it fails in one place as in the other. -/
theorem Moves.optional (h : Moves ℓ w b b' T R r r')
    (hfail : ∀ c c', T c.rest c'.rest → (∃ e, r c = .error e) → ∃ e, r' c' = .error e) :
    Moves ℓ 0 b b' T (Option.Rel R) (optional r) (optional r') := by
  intro c o d hc hb hr
  rw [Reader.optional] at hr
  cases hx : r c with
  | error e =>
    rw [hx] at hr
    cases hr
    refine ⟨[], .nothing _, rfl, rfl, ⟨none, .none⟩, fun d' o' ht _ _ => ⟨none, ?_, .none⟩⟩
    obtain ⟨e', he'⟩ := hfail c ⟨d', o'⟩ ht ⟨e, hx⟩
    rw [List.nil_append, Reader.optional, he']
    rfl
  | ok p =>
    rw [hx] at hr
    cases hr
    obtain ⟨v, -, hs, ho, ⟨x, hx⟩, hm⟩ := h c p.1 p.2 hc hb hx
    refine ⟨v, .nothing _, hs, ho, ⟨some x, .some hx⟩, fun d' o' ht hd hoff => ?_⟩
    obtain ⟨a', hr', ha⟩ := hm d' o' ht hd hoff
    exact ⟨some a', by rw [Reader.optional, hr'], .some ha⟩

/-- A token that is not next behind blanks in one place is not next there in the other. -/
def RefusedInk (T : List Char → List Char → Prop) (token : String) : Prop :=
  ∀ ⦃d d'⦄, T d d' → token.toList.isPrefixOf (d.dropWhile Text.isBlank) = false →
    token.toList.isPrefixOf (d'.dropWhile Text.isBlank) = false

theorem refusedInk_head (hT : Tail T) {token : String} {x : Char} (ht : token.toList = [x]) : RefusedInk T token := by
  intro d d' h hd
  rw [ht, Bool.eq_false_iff, Ne, isPrefixOf_singleton] at hd ⊢
  exact fun hx => hd (hT.ink h x hx)

theorem refusedInk_closed {token : String} (ht : token.toList.dropLast.any isCloser = false) :
    RefusedInk Closed token := fun _ _ h => refused_closed ht (h.while_eq open_isBlank).1

theorem operator_moves (hT : Tail T) {token : String} (hrefused : RefusedInk T token) :
    Moves ℓ 0 b b' T Eq (operator token) (operator token) := by
  have hseq : Moves ℓ 0 b b' T (fun _ _ => True) (do blanks; expect token; blanks) (do blanks; expect token; blanks) :=
    .bind hT (blanks_moves hT) fun _ _ _ _ _ _ => .bind hT (expect_moves (.nothing _)) fun _ _ _ _ _ _ =>
      blanks_moves hT
  refine .bind hT (hseq.optional fun c c' ht ⟨e, he⟩ => ?_) fun _ o o' _ _ ho => .pure (by cases ho <;> rfl)
  -- the token is not next in this place, and so it is not in the other
  have hn : token.toList.isPrefixOf (c.rest.dropWhile Text.isBlank) = false := by
    refine Bool.eq_false_iff.mpr fun hp => ?_
    obtain ⟨y, hy⟩ := List.isPrefixOf_iff_prefix.mp hp
    have htakes : Takes (do blanks; expect token; blanks) c.rest (y.dropWhile Text.isBlank) fun _ => True :=
      blanks_takes.bind fun _ _ => by
        rw [← hy]
        exact (expect_takes rfl).bind fun _ _ => blanks_takes
    obtain ⟨_, _, hok, -⟩ := htakes c.offset
    cases he.symm.trans hok
  exact Fails.bind blanks_takes (fun _ _ => (expect_fails (hrefused ht hn)).first) c'.offset

theorem comma_moves (hT : Tail T) : Moves ℓ 0 b b' T Eq comma comma := by
  refine .bind hT (blanks_moves hT) fun _ _ _ _ _ _ =>
    .bind hT (accept_moves hT (List.cons_ne_nil ',' []) (refused_head hT rfl)) fun _ found _ _ _ h => ?_
  subst h
  cases found with
  | true => exact .bind hT (blanks_moves hT) fun _ _ _ _ _ _ => .pure rfl
  | false => exact .pure rfl

theorem superDot_moves (hT : Tail T) (name : String) : Moves ℓ 0 b b' T Eq (superDot name) (superDot name) := by
  unfold superDot
  split
  · exact accept_moves hT (List.cons_ne_nil '.' []) (refused_head hT rfl)
  · exact .pure rfl

end Reader

end Stencil
