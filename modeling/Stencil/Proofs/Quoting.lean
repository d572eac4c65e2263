import Stencil.Proofs.Moving
import Stencil.Proofs.Wording
/-! Text in other places: quoted text, comments, special characters, literal text, and the parameters of templates
without a name. -/

namespace Stencil

namespace Reader

variable {ℓ w b b' : Nat} {T : List Char → List Char → Prop}

/-! ## Quoted text -/

/-- Quoted text goes up to its closing quote, whatever comes behind that. -/
theorem quotedRest_moves (cs : List Char) (offset : Nat) {t : List Char} {d : Cursor}
    (h : quotedRest cs offset = .ok (t, d)) : ∃ v, v ≠ [] ∧ cs = v ++ d.rest ∧
      d.offset = offset + Text.byteLength v ∧
      ∀ d' o', quotedRest (v ++ d') o' = .ok (t, ⟨d', o' + Text.byteLength v⟩) := by
  fun_induction quotedRest cs offset generalizing t d with
  | case1 => cases h
  | case2 rest offset =>
    cases h
    exact ⟨['"'], List.cons_ne_nil _ _, rfl, rfl, fun d' o' => by rw [List.singleton_append, quotedRest]; rfl⟩
  | case3 => cases h
  | case4 c rest offset ih =>
    cases hq : quotedRest rest (offset + 1 + c.utf8Size) with
    | error e => rw [hq] at h; cases h
    | ok p =>
      rw [hq] at h
      cases h
      obtain ⟨v, -, hs, ho, hm⟩ := ih hq
      refine ⟨'\\' :: c :: v, List.cons_ne_nil _ _, by rw [hs]; rfl, ?_, fun d' o' => ?_⟩
      · rw [ho, Text.byteLength, Text.byteLength, show ('\\').utf8Size = 1 from rfl]
        omega
      · rw [List.cons_append, List.cons_append, quotedRest, hm]
        simp only [Text.byteLength, show ('\\').utf8Size = 1 from rfl, Nat.add_assoc]
        rfl
  | case5 c rest offset hquote hlast hescape ih =>
    -- it is neither the closing quote nor a backslash
    have hplain : c ≠ '\\' := by
      rintro rfl
      cases rest with
      | nil => exact hlast rfl rfl
      | cons x rest => exact hescape x rest rfl rfl
    cases hq : quotedRest rest (offset + c.utf8Size) with
    | error e => rw [hq] at h; cases h
    | ok p =>
      rw [hq] at h
      cases h
      obtain ⟨v, -, hs, ho, hm⟩ := ih hq
      refine ⟨c :: v, List.cons_ne_nil _ _, by rw [hs]; rfl, ?_, fun d' o' => ?_⟩
      · rw [ho, Text.byteLength, Nat.add_assoc]
      · rw [List.cons_append, quotedRest_plain hquote hplain, hm, Text.byteLength, Nat.add_assoc]
        rfl

theorem quoted_moves : Moves ℓ 1 b b' T Eq quoted quoted := by
  refine .free_bind (expect_moves (.nothing _)) fun _ _ _ _ _ _ => .map (P := Eq) ?_ fun _ _ h => congrArg _ h
  intro c t d hc hb hr
  obtain ⟨v, hv, hs, ho, hm⟩ := quotedRest_moves c.rest c.offset hr
  exact ⟨v, ⟨fun _ => hv, nofun⟩, hs, ho, ⟨t, rfl⟩, fun d' o' _ _ _ => ⟨t, hm d' o', rfl⟩⟩

/-! ## Comments -/

theorem past?_ok {token : List Char} {c d : Cursor} (h : c.past? token = some d) :
    c.rest = token ++ d.rest ∧ d.offset = c.offset + Text.byteLength token := by
  rw [Cursor.past?] at h
  split at h
  · next hp =>
    cases h
    exact ⟨(List.prefix_iff_eq_append.mp (List.isPrefixOf_iff_prefix.mp hp)).symm, rfl⟩
  · cases h

/-- A token that is not next is not next either if something else comes far behind. -/
theorem past?_none_append {token v d d' : List Char} (hle : token.length ≤ v.length) {o o' : Nat}
    (h : (Cursor.mk (v ++ d) o).past? token = none) : (Cursor.mk (v ++ d') o').past? token = none := by
  rw [Cursor.past?] at h ⊢
  split at h
  · cases h
  · next hn =>
    refine if_neg fun hp => hn (List.isPrefixOf_iff_prefix.mpr ?_)
    exact (List.prefix_of_prefix_length_le (List.isPrefixOf_iff_prefix.mp hp) (List.prefix_append v d') hle).trans
      (List.prefix_append v d)

theorem find_append {stop : String} (hstop : stop.toList ≠ []) (fault : Fault) (start : Cursor) (d : List Char)
    (offset : Nat) : through.find stop fault start (stop.toList ++ d) offset =
      .ok ((), ⟨d, offset + Text.byteLength stop.toList⟩) := by
  have hpast := past?_append (d := d) stop.toList offset
  cases ht : stop.toList with
  | nil => exact absurd ht hstop
  | cons x token =>
    rw [ht, List.cons_append] at hpast
    rw [List.cons_append, through.find, ht, hpast]

/-- What is ended by a stop goes up to the first one, whatever comes behind that. -/
theorem find_moves {stop : String} (hstop : stop.toList ≠ []) (fault : Fault) (start : Cursor) :
    (cs : List Char) → (offset : Nat) → {d : Cursor} → through.find stop fault start cs offset = .ok ((), d) →
    ∃ v, stop.toList.length ≤ v.length ∧ cs = v ++ d.rest ∧ d.offset = offset + Text.byteLength v ∧
      ∀ start' d' o', through.find stop fault start' (v ++ d') o' = .ok ((), ⟨d', o' + Text.byteLength v⟩)
  | [], _, _, h => by cases h
  | x :: rest, offset, d, h => by
      rw [through.find] at h
      cases hx : (Cursor.mk (x :: rest) offset).past? stop.toList with
      | some e =>
        rw [hx] at h
        cases h
        obtain ⟨hs, ho⟩ := past?_ok hx
        exact ⟨stop.toList, Nat.le_refl _, hs, ho, fun start' d' o' => find_append hstop fault start' d' o'⟩
      | none =>
        rw [hx] at h
        obtain ⟨v, hle, rfl, ho, hm⟩ := find_moves hstop fault start rest _ h
        refine ⟨x :: v, Nat.le_succ_of_le hle, rfl, by rw [ho, Text.byteLength, Nat.add_assoc], fun start' d' o' => ?_⟩
        have hx' : (Cursor.mk (x :: (v ++ d')) o').past? stop.toList = none :=
          past?_none_append (v := x :: v) (Nat.le_succ_of_le hle) hx
        rw [List.cons_append, through.find, hx', Text.byteLength, ← Nat.add_assoc]
        exact hm start' d' (o' + x.utf8Size)

theorem comment_moves : Moves ℓ 1 b b' T (fun _ _ => True) comment comment := by
  refine .free_bind (expect_moves (.nothing _)) fun _ _ _ _ _ _ c t d hc hb hr => ?_
  have hstop : "!>".toList ≠ [] := List.cons_ne_nil '!' ['>']
  obtain ⟨v, hle, hs, ho, hm⟩ := find_moves hstop _ c c.rest c.offset hr
  refine ⟨v, ⟨fun _ => List.ne_nil_of_length_pos (Nat.lt_of_lt_of_le (by decide) hle), nofun⟩, hs, ho, ⟨(), trivial⟩,
    fun d' o' _ _ _ => ⟨(), hm _ d' o', trivial⟩⟩

/-! ## Special characters -/

theorem unicodeEscape_ok {c d : Cursor} {x : Char} (h : unicodeEscape c = .ok (x, d)) :
    ∃ digits, digits.length = 4 ∧ digits.all isHexDigit = true ∧
      character? (digits.foldl (fun n d => 16 * n + hexDigit d) 0) = some x ∧ c.rest = digits ++ d.rest ∧
      d.offset = c.offset + Text.byteLength digits := by
  rw [unicodeEscape, bind_apply] at h
  dsimp only at h
  by_cases hd : ((c.rest.take 4).length = 4 && (c.rest.take 4).all isHexDigit) = true
  · rw [if_pos hd] at h
    rw [Bool.and_eq_true, decide_eq_true_eq] at hd
    refine ⟨c.rest.take 4, hd.1, hd.2, ?_⟩
    cases hx : character? ((c.rest.take 4).foldl (fun n d => 16 * n + hexDigit d) 0) with
    | some y =>
      simp only [hx, bind, Except.bind] at h
      cases h
      exact ⟨rfl, (List.take_append_drop 4 c.rest).symm, rfl⟩
    | none =>
      simp only [hx, bind, Except.bind] at h
      cases h
  · rw [if_neg hd] at h
    cases h

theorem unicodeEscape_append {digits : List Char} {x : Char} (hl : digits.length = 4)
    (hd : digits.all isHexDigit = true) (hx : character? (digits.foldl (fun n d => 16 * n + hexDigit d) 0) = some x)
    (d : List Char) (offset : Nat) :
    unicodeEscape ⟨digits ++ d, offset⟩ = .ok (x, ⟨d, offset + Text.byteLength digits⟩) := by
  have htake : (digits ++ d).take 4 = digits := by rw [← hl, List.take_left]
  have hdrop : (digits ++ d).drop 4 = d := by rw [← hl, List.drop_left]
  rw [unicodeEscape, bind_apply]
  simp only [htake, hdrop, hl, hd, hx, bind, Except.bind, decide_true, Bool.and_self, if_true]
  rfl

/-- What an escape stands for, and whether it swallows a line break. -/
def escape : Char → Reader (List Char × Bool)
  | 'n' => return (['\n'], false)
  | 't' => return (['\t'], false)
  | 'r' => return (['\r'], false)
  | ' ' => return ([' '], false)
  | '\\' => return ([], true)
  | 'u' => return ([← unicodeEscape], false)
  | _ => fail .unknownEscape

theorem escapes_succ (n : Nat) : escapes (n + 1) = (do
    if ← startsWith ">" then return ([], false)
    expect "\\"
    let some c ← next? | fail .cutOff
    let (first, swallows) ← escape c
    let (more, swallow) ← escapes n
    return (first ++ more, swallows || swallow)) := by
  rw [escapes]
  rfl

/-- An escape is the same, whatever comes behind it. -/
theorem escape_ok {x : Char} {c d : Cursor} {p : List Char × Bool} (h : escape x c = .ok (p, d)) :
    ∃ v, c.rest = v ++ d.rest ∧ d.offset = c.offset + Text.byteLength v ∧
      ∀ d' o', escape x ⟨v ++ d', o'⟩ = .ok (p, ⟨d', o' + Text.byteLength v⟩) := by
  unfold escape at h ⊢
  split at h
  · cases h; exact ⟨[], rfl, rfl, fun _ _ => rfl⟩
  · cases h; exact ⟨[], rfl, rfl, fun _ _ => rfl⟩
  · cases h; exact ⟨[], rfl, rfl, fun _ _ => rfl⟩
  · cases h; exact ⟨[], rfl, rfl, fun _ _ => rfl⟩
  · cases h; exact ⟨[], rfl, rfl, fun _ _ => rfl⟩
  · obtain ⟨x, e, he, h⟩ := bind_ok h
    cases h
    obtain ⟨digits, hl, hd, hx, hs, ho⟩ := unicodeEscape_ok he
    refine ⟨digits, hs, ho, fun d' o' => ?_⟩
    rw [bind_apply, unicodeEscape_append hl hd hx]
    rfl
  · cases h

/-- The escapes end, or there is one more. -/
theorem escapes_ok {n : Nat} {c d : Cursor} {p : List Char × Bool} (h : escapes (n + 1) c = .ok (p, d)) :
    (c.rest.head? = some '>' ∧ d = c ∧ p = ([], false)) ∨
      ∃ x rest first more e, c.rest = '\\' :: x :: rest ∧ escape x ⟨rest, c.offset + 1 + x.utf8Size⟩ = .ok (first, e) ∧
        escapes n e = .ok (more, d) ∧ p = (first.1 ++ more.1, first.2 || more.2) := by
  rw [escapes_succ] at h
  obtain ⟨found, _, hfound, h⟩ := bind_ok h
  cases hfound
  by_cases hc : c.startsWith ">" = true
  · rw [if_pos hc] at h
    cases h
    exact .inl ⟨(isPrefixOf_singleton '>' _).mp hc, rfl, rfl⟩
  · rw [if_neg hc] at h
    obtain ⟨_, ⟨rest, offset⟩, hbar, h⟩ := bind_ok h
    obtain ⟨hs, ho⟩ := expect_ok hbar
    cases rest with
    | nil => cases h
    | cons x rest =>
      change (do
        let first ← escape x
        let more ← escapes n
        return (first.1 ++ more.1, first.2 || more.2) : Reader (List Char × Bool)) ⟨rest, offset + x.utf8Size⟩ = _ at h
      obtain ⟨first, e, he, h⟩ := bind_ok h
      obtain ⟨more, _, hm, h⟩ := bind_ok h
      cases h
      cases ho
      exact .inr ⟨x, rest, first, more, e, hs, he, hm, rfl⟩

theorem escapes_stop (n : Nat) (rest : List Char) (offset : Nat) :
    escapes (n + 1) ⟨'>' :: rest, offset⟩ = .ok (([], false), ⟨'>' :: rest, offset⟩) := by
  rw [escapes_succ]
  rfl

theorem escapes_cons {n : Nat} {x : Char} {rest : List Char} {offset : Nat} {first more : List Char × Bool} {d e : Cursor}
    (he : escape x ⟨rest, offset + 1 + x.utf8Size⟩ = .ok (first, e)) (hm : escapes n e = .ok (more, d)) :
    escapes (n + 1) ⟨'\\' :: x :: rest, offset⟩ = .ok ((first.1 ++ more.1, first.2 || more.2), d) := by
  rw [escapes_succ]
  change (do
    let first ← escape x
    let more ← escapes n
    return (first.1 ++ more.1, first.2 || more.2) : Reader (List Char × Bool)) ⟨rest, offset + 1 + x.utf8Size⟩ = _
  rw [bind_apply, he]
  change (escapes n >>= fun more => pure (first.1 ++ more.1, first.2 || more.2)) e = _
  rw [bind_apply, hm]
  rfl

/-- The escapes of a special character end where its end is, whatever comes behind that. -/
theorem escapes_moves : (n : Nat) → {c d : Cursor} → {p : List Char × Bool} → escapes n c = .ok (p, d) →
    ∃ v, c.rest = v ++ d.rest ∧ d.offset = c.offset + Text.byteLength v ∧ d.rest.head? = some '>' ∧
      ∀ n' d' o', v.length < n' → escapes n' ⟨v ++ '>' :: d', o'⟩ = .ok (p, ⟨'>' :: d', o' + Text.byteLength v⟩)
  | 0, _, _, _, h => by cases h
  | n + 1, c, d, p, h => by
      obtain ⟨hc, rfl, rfl⟩ | ⟨x, rest, first, more, e, hs, he, hm, rfl⟩ := escapes_ok h
      · refine ⟨[], rfl, rfl, hc, fun n' d' o' hn => ?_⟩
        obtain ⟨n', rfl⟩ := Nat.exists_eq_add_one_of_ne_zero (Nat.ne_of_gt hn)
        exact escapes_stop n' d' o'
      · obtain ⟨u, hu, hou, hfirst⟩ := escape_ok he
        obtain ⟨v, hv, hov, hd, hmore⟩ := escapes_moves n hm
        refine ⟨'\\' :: x :: (u ++ v), ?_, ?_, hd, fun n' d' o' hn => ?_⟩
        · rw [hs, show rest = u ++ e.rest from hu, hv]
          simp
        · simp only [hov, hou, Text.byteLength, Text.byteLength_append, show ('\\').utf8Size = 1 from rfl]
          omega
        · obtain ⟨n', rfl⟩ := Nat.exists_eq_add_one_of_ne_zero (Nat.ne_of_gt (Nat.zero_lt_of_lt hn))
          simp only [List.length_cons, List.length_append] at hn
          have hmore := hmore n' d' (o' + 1 + x.utf8Size + Text.byteLength u) (by omega)
          have hfirst := hfirst (v ++ '>' :: d') (o' + 1 + x.utf8Size)
          rw [List.cons_append, List.cons_append, List.append_assoc, escapes_cons hfirst hmore]
          simp only [Text.byteLength, Text.byteLength_append, show ('\\').utf8Size = 1 from rfl, Nat.add_assoc]

/-- The escapes that are left in a special character. -/
def marks : Reader (List Char × Bool) := do
  let c ← get
  escapes (c.rest.length + 1)

theorem marks_moves : Moves ℓ 0 b b' (fun d d' => d.head? = d'.head?) Eq marks marks := by
  intro c p d _ _ hr
  obtain ⟨v, hs, ho, hd, hm⟩ := escapes_moves (c.rest.length + 1) hr
  refine ⟨v, .nothing _, hs, ho, ⟨p, rfl⟩, fun d' o' ht _ _ => ⟨p, ?_, rfl⟩⟩
  cases d' with
  | nil => cases hd.symm.trans ht
  | cons x d' =>
    cases hd.symm.trans ht
    exact hm _ d' o' (by rw [List.length_append]; omega)

theorem special_eq : special = (do
    expect "<"
    let p ← marks
    expect ">"
    if p.2 then
      let _ ← accept "\r"
      let _ ← accept "\n"
      return String.ofList p.1
    else return String.ofList p.1) := rfl

theorem special_moves (hT : Tail T) : Moves ℓ 1 b b' T Eq special special := by
  rw [special_eq]
  refine .bind hT (expect_one rfl) fun _ _ _ _ _ _ => .bind_of ?_ marks_moves fun _ p p' _ _ hp =>
    .bind_left hT (expect_one rfl) fun _ _ _ _ _ _ => ?_
  · intro v d d' hv _
    obtain ⟨x, v, rfl⟩ := List.exists_cons_of_ne_nil (hv.1 (Nat.le_refl 1))
    rfl
  · subst hp
    have htext : ∀ ℓ', Moves ℓ' 0 b b' T Eq (pure (String.ofList p.1)) (pure (String.ofList p.1)) := fun _ => .pure rfl
    cases p.2 with
    | false => exact htext _
    | true =>
      exact .bind hT (accept_moves hT (List.cons_ne_nil _ []) (refused_head hT rfl)) fun _ _ _ _ _ _ =>
        .bind hT (accept_moves hT (List.cons_ne_nil _ []) (refused_head hT rfl)) fun _ _ _ _ _ _ => htext _

/-! ## Literal text -/

/-- Characters that a backslash in literal text quotes. -/
def isQuotable (x : Char) : Bool := x = '<' || x = '>' || x = '\x7b' || x = '\x7d'

theorem literalText_bar (nested : Bool) (x : Char) (more : List Char) (offset : Nat) :
    literalText nested ('\\' :: x :: more) offset =
      if isQuotable x then ((literalText nested more (offset + 2)).map (x :: ·) id)
      else ((literalText nested (x :: more) (offset + 1)).map ('\\' :: ·) id) := by
  rw [literalText, if_neg (by simp), if_pos rfl]
  rfl

theorem literalText_plain {nested : Bool} {c : Char} (hend : ¬(c = '<' || nested && c = '\x7d') = true) (hb : c ≠ '\\')
    (rest : List Char) (offset : Nat) : literalText nested (c :: rest) offset =
      (literalText nested rest (offset + c.utf8Size)).map (c :: ·) id := by
  rw [literalText.eq_def]
  dsimp only
  rw [if_neg hend, if_neg hb]
  rfl

/-- Literal text goes up to where it ends. Only at the end of a source, it may end behind a backslash. -/
theorem literalText_moves (nested : Bool) (cs : List Char) (offset : Nat) {t : List Char} {d : Cursor}
    (h : literalText nested cs offset = (t, d)) : EndsText nested d.rest ∧ ∃ v, cs = v ++ d.rest ∧
      d.offset = offset + Text.byteLength v ∧ ∀ d' o', EndsText nested d' → (d.rest = [] → d' = []) →
        literalText nested (v ++ d') o' = (t, ⟨d', o' + Text.byteLength v⟩) := by
  fun_induction literalText nested cs offset generalizing t d with
  | case1 offset =>
    cases h
    exact ⟨.nil nested, [], rfl, rfl, fun d' o' hd _ => literalText_end hd o'⟩
  | case2 c rest offset hend =>
    cases h
    have hend : EndsText nested (c :: rest) := fun x hx => by cases hx; simpa using hend
    exact ⟨hend, [], rfl, rfl, fun d' o' hd _ => literalText_end hd o'⟩
  | case3 offset hend =>
    cases h
    refine ⟨.nil nested, ['\\'], rfl, rfl, fun d' o' _ hd => ?_⟩
    rw [hd rfl, List.append_nil, literalText, if_neg hend, if_pos rfl]
    rfl
  | case4 offset x more hq _ _ hrec _ ih =>
    cases h
    obtain ⟨hend, v, hs, ho, hm⟩ := ih hrec
    have hx : x.utf8Size = 1 := by
      simp only [Bool.or_eq_true, decide_eq_true_eq] at hq
      obtain ((rfl | rfl) | rfl) | rfl := hq <;> rfl
    have hlen : Text.byteLength ('\\' :: x :: v) = 2 + Text.byteLength v := by
      rw [Text.byteLength, Text.byteLength, hx, ← Nat.add_assoc]
      rfl
    refine ⟨hend, '\\' :: x :: v, by rw [hs]; rfl, by rw [ho, hlen, Nat.add_assoc], fun d' o' hd hnil => ?_⟩
    rw [List.cons_append, List.cons_append, literalText_bar, if_pos (show isQuotable x = true from hq),
      hm d' _ hd hnil, hlen, ← Nat.add_assoc]
    rfl
  | case5 offset x more hq _ _ hrec hend ih =>
    cases h
    obtain ⟨hend, v, hs, ho, hm⟩ := ih hrec
    -- the character behind the backslash is literal text as well
    obtain ⟨v, rfl⟩ : ∃ u, v = x :: u := by
      cases v with
      | nil =>
        refine absurd ?_ hq
        obtain rfl | ⟨-, rfl⟩ := hend x (by rw [← List.nil_append (Cursor.rest _), ← hs]; rfl)
        · rfl
        · rfl
      | cons y v => exact ⟨v, by rw [(List.cons_eq_cons.mp hs).1]⟩
    refine ⟨hend, '\\' :: x :: v, congrArg ('\\' :: ·) hs, by rw [ho, Text.byteLength, Nat.add_assoc]; rfl, fun d' o' hd hnil => ?_⟩
    rw [List.cons_append, List.cons_append, literalText_bar, if_neg (show ¬isQuotable x = true from hq)]
    have hm := hm d' (o' + 1) hd hnil
    rw [List.cons_append] at hm
    rw [hm, show Text.byteLength ('\\' :: x :: v) = 1 + Text.byteLength (x :: v) from rfl, ← Nat.add_assoc]
    rfl
  | case6 c rest offset hend hb _ _ hrec ih =>
    cases h
    obtain ⟨hend', v, hs, ho, hm⟩ := ih hrec
    refine ⟨hend', c :: v, by rw [hs]; rfl, by rw [ho, Text.byteLength, Nat.add_assoc], fun d' o' hd hnil => ?_⟩
    rw [List.cons_append, literalText_plain hend hb, hm d' _ hd hnil, Text.byteLength, Nat.add_assoc]
    rfl

theorem text_moves (hT : Tail T) (nested : Bool) : Moves ℓ 0 b b' T Eq (text nested) (text nested) := by
  intro c s d _ _ hr
  obtain ⟨hend, v, hs, ho, hm⟩ := literalText_moves nested c.rest c.offset (t := (literalText nested c.rest c.offset).1)
    (d := d) (by cases hr; rfl)
  refine ⟨v, .nothing _, hs, ho, ⟨s, rfl⟩, fun d' o' ht _ _ => ⟨s, ?_, rfl⟩⟩
  have hd' : EndsText nested d' := fun x hx => hend x (hT.head ht x hx)
  have hnil (hd : d.rest = []) : d' = [] := by
    rw [hd] at ht
    cases d' with
    | nil => rfl
    | cons x d' => cases hT.head ht x rfl
  rw [text, hm d' o' hd' hnil]
  cases hr
  rfl

/-! ## Parameters -/

/-- A parameter with its bar. -/
def barred : Reader String := do
  blanks
  let p ← name .cutOff
  blanks
  expect "|"
  return p

/-- The characters that are left behind a name between blanks. -/
def behindName (cs : List Char) : List Char :=
  ((cs.dropWhile Text.isBlank).dropWhile continuesName).dropWhile Text.isBlank

theorem barred_takes {cs d : List Char} {x : Char} (hx : (cs.dropWhile Text.isBlank).head? = some x)
    (hs : startsName x = true) (hb : behindName cs = '|' :: d) : Takes barred cs d fun _ => True := by
  refine blanks_takes.bind fun _ _ => (name_takes_longest hx hs).bind fun _ _ => blanks_takes.bind fun _ _ => ?_
  rw [show List.dropWhile _ _ = _ from hb]
  exact (expect_next rfl).bind fun _ _ => .pure trivial

/-- Where no name starts behind blanks, or no bar is behind one, there is no parameter. -/
theorem barred_fails {cs : List Char}
    (h : ∀ x, (cs.dropWhile Text.isBlank).head? = some x → startsName x = true → (behindName cs).head? ≠ some '|') :
    Fails barred cs := by
  refine .bind blanks_takes fun _ _ => ?_
  by_cases hn : ∀ x ∈ (cs.dropWhile Text.isBlank).head?, startsName x = false
  · exact (name_fails hn).first
  · obtain ⟨x, hx, hs⟩ : ∃ x ∈ (cs.dropWhile Text.isBlank).head?, startsName x = true := by simpa using hn
    exact .bind (name_takes_longest hx hs) fun _ _ => .bind blanks_takes fun _ _ =>
      (expect_fails (isPrefixOf_head rfl (h x hx hs))).first

/-- Whether a parameter is next is decided in front of any bracket that closes. -/
theorem parameter_moves : Moves ℓ 0 b b' Closed Eq parameter parameter := by
  have hbarred : Moves ℓ 1 b b' Closed Eq barred barred :=
    .bind Closed.tail (blanks_moves Closed.tail) fun _ _ _ _ _ _ => .bind_left Closed.tail (name_moves Closed.tail _)
      fun _ _ _ _ _ h => .bind Closed.tail (blanks_moves Closed.tail) fun _ _ _ _ _ _ =>
        .bind Closed.tail (expect_moves (.nothing _)) fun _ _ _ _ _ _ => .pure h
  refine .bind Closed.tail (hbarred.optional fun c c' ht ⟨e, he⟩ => ?_) fun _ o o' _ _ ho => ?_
  · have hink := (ht.while_eq open_isBlank).1
    have hbehind : (behindName c.rest).head? = (behindName c'.rest).head? :=
      ((hink.while_eq open_continuesName).1.while_eq open_isBlank).1.head?_eq
    refine barred_fails (fun x hx hs hb => ?_) c'.offset
    rw [← hbehind] at hb
    obtain ⟨d, hd⟩ := List.head?_eq_some_iff.mp hb
    obtain ⟨_, _, hok, -⟩ := barred_takes (hink.head?_eq.trans hx) hs hd c.offset
    cases he.symm.trans hok
  · have ho : o = o' := by cases ho with | none => rfl | some h => rw [h]
    subst ho
    cases o with
    | none => exact .pure rfl
    | some p =>
      exact .bind Closed.tail (accept_moves Closed.tail (List.cons_ne_nil _ []) (refused_head Closed.tail rfl))
        fun _ _ _ _ _ _ => .pure rfl

end Reader

end Stencil
