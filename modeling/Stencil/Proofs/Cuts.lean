import Stencil.Proofs.Relocation
/-! Expressions cut out of their source. A chain of properties or maps is read from the left, so that the text up to any
link of it is read as what the chain is there. -/

namespace Stencil

/-! ## Places of a source -/

theorem Text.eq_nil_of_byteLength {cs : List Char} (h : Text.byteLength cs = 0) : cs = [] := by
  cases cs with
  | nil => rfl
  | cons c cs =>
    have := c.utf8Size_pos
    rw [Text.byteLength] at h
    omega

/-- What is next at a place of a source. -/
def RestAt (source : String) (offset : Nat) (rest : List Char) : Prop :=
  ∃ before, source.toList = before ++ rest ∧ offset = Text.byteLength before

theorem RestAt.append {source : String} {offset : Nat} {v rest : List Char} (h : RestAt source offset (v ++ rest)) :
    RestAt source (offset + Text.byteLength v) rest := by
  obtain ⟨before, hs, rfl⟩ := h
  exact ⟨before ++ v, by rw [hs, List.append_assoc], (Text.byteLength_append before v).symm⟩

/-- What is behind a place is behind an earlier one as well. -/
theorem RestAt.upTo {source : String} {offset offset' : Nat} {rest rest' : List Char} (h : RestAt source offset rest)
    (h' : RestAt source offset' rest') (hle : offset ≤ offset') :
    ∃ v, rest = v ++ rest' ∧ offset' = offset + Text.byteLength v := by
  obtain ⟨before, hs, rfl⟩ := h
  obtain ⟨before', hs', rfl⟩ := h'
  obtain ⟨v, rfl, rfl⟩ | ⟨v, rfl, rfl⟩ := List.append_eq_append_iff.mp (hs.symm.trans hs')
  · exact ⟨v, rfl, Text.byteLength_append before v⟩
  · rw [Text.byteLength_append] at hle
    obtain rfl : v = [] := Text.eq_nil_of_byteLength (by omega)
    exact ⟨[], rfl, by rw [List.append_nil, Text.byteLength, Nat.add_zero]⟩

/-- There is one text behind a place. -/
theorem RestAt.unique {source : String} {offset : Nat} {rest rest' : List Char} (h : RestAt source offset rest)
    (h' : RestAt source offset rest') : rest = rest' := by
  obtain ⟨v, rfl, ho⟩ := h.upTo h' (Nat.le_refl _)
  rw [Text.eq_nil_of_byteLength (Nat.left_eq_add.mp ho), List.nil_append]

/-- A text that is cut off where no comma goes on with it. -/
def Cut (d d' : List Char) : Prop := d' <+: d ∧ (d'.dropWhile Text.isBlank).head? ≠ some ','

theorem Cut.nil (d : List Char) : Cut d [] := ⟨List.nil_prefix, nofun⟩

namespace Reader

variable {source : String} {start stop k j n ℓ : Nat} {e t : Expr}

theorem Moves.weaken {α : Type} {w b b' : Nat} {T T' : List Char → List Char → Prop} {R : α → α → Prop} {r r' : Reader α}
    (h : Moves ℓ w b b' T R r r') (hT : ∀ d d', T' d d' → T d d') : Moves ℓ w b b' T' R r r' := by
  intro c a d hc hb hr
  obtain ⟨v, hv, hs, ho, ha, hm⟩ := h c a d hc hb hr
  exact ⟨v, hv, hs, ho, ha, fun d' o' ht => hm d' o' (hT _ _ ht)⟩

/-- What is read in a source is read as well where the source is cut off behind it, by any bound on the steps that is
enough for what is left. -/
theorem Moves.cut {here : Reader Expr} {there : Nat → Reader Expr} {c d : Cursor}
    (hm : ∀ n, 16 * c.rest.length + k ≤ n →
      Moves c.rest.length 1 start 0 Cut (Moved Expr.shift start 0) here (there n))
    (hsame : ∀ ℓ n n', 16 * ℓ + k ≤ n → 16 * ℓ + k ≤ n' →
      Moves ℓ 1 0 0 Eq (Moved Expr.shift 0 0) (there n) (there n'))
    (hb : start ≤ c.offset) (hr : here c = .ok (e, d)) :
    ∃ v, v ≠ [] ∧ c.rest = v ++ d.rest ∧ d.offset = c.offset + Text.byteLength v ∧
      ∀ d' o n, Cut d.rest d' → c.offset = o + start → 16 * (v ++ d').length + k ≤ n →
        ∃ e', there n ⟨v ++ d', o⟩ = .ok (e', ⟨d', o + Text.byteLength v⟩) ∧ Moved Expr.shift start 0 e e' := by
  obtain ⟨v, hv, hs, ho, -, hgo⟩ := hm _ (Nat.le_refl _) c e d (Nat.le_refl _) hb hr
  refine ⟨v, hv.1 (Nat.le_refl 1), hs, ho, fun d' o n hd hoff hn => ?_⟩
  have hle : (v ++ d').length ≤ c.rest.length := by
    rw [hs, List.length_append, List.length_append]
    exact Nat.add_le_add_left hd.1.length_le _
  obtain ⟨u, -, hs', -, -, hgo⟩ := hm _ (Nat.le_refl _) c e d (Nat.le_refl _) hb hr
  obtain rfl : v = u := List.append_cancel_right (hs.symm.trans hs')
  obtain ⟨e', hr', he'⟩ := hgo d' o hd hle hoff
  obtain ⟨u, -, hs', -, -, hgo'⟩ := hsame _ _ n (by omega) hn _ e' _ (Nat.le_refl _) (Nat.zero_le _) hr'
  obtain rfl : v = u := List.append_cancel_right hs'
  obtain ⟨e'', hr'', he''⟩ := hgo' d' o rfl (Nat.le_refl _) rfl
  rw [Moved, Expr.shift_zero, Expr.shift_zero] at he''
  exact ⟨e'', hr'', he'' ▸ he'⟩

/-! ## Chains -/

/-- Reading the text from `start` to `stop` by itself, and what is left of a chain behind it, comes to reading the rest
of the chain behind `e`. -/
def Leads (whole : Nat → Reader Expr) (chain : Nat → Nat → Expr → Reader Expr) (k j : Nat) (source : String)
    (start stop : Nat) (e : Expr) : Prop :=
  ∃ u y, u ≠ [] ∧ RestAt source start (u ++ y) ∧ stop = start + Text.byteLength u ∧
    ∀ y' n, Cut y y' → 16 * (u ++ y').length + k ≤ n → ∃ m e', 16 * y'.length + j ≤ m ∧ Moved Expr.shift start 0 e e' ∧
      whole n ⟨u ++ y', 0⟩ = chain m 0 e' ⟨y', Text.byteLength u⟩

/-- One more link of a chain. -/
theorem Leads.link {whole : Nat → Reader Expr} {chain : Nat → Nat → Expr → Reader Expr} {here : Reader Expr}
    {there : Nat → Nat → Expr → Reader Expr} {c d : Cursor} (h : Leads whole chain k (j + 1) source start c.offset t)
    (hc : RestAt source c.offset c.rest)
    (hlink : ∀ n t t' c d, there n 0 t c = .ok (t', d) → chain (n + 1) 0 t c = chain n 0 t' d)
    (hm : ∀ n t', Moved Expr.shift start 0 t t' → 16 * c.rest.length + j ≤ n →
      Moves c.rest.length 1 start 0 Cut (Moved Expr.shift start 0) here (there n 0 t'))
    (hsame : ∀ t ℓ n n', 16 * ℓ + j ≤ n → 16 * ℓ + j ≤ n' →
      Moves ℓ 1 0 0 Eq (Moved Expr.shift 0 0) (there n 0 t) (there n' 0 t))
    (hr : here c = .ok (e, d)) (hcomma : ∀ v, v ≠ [] → c.rest = v ++ d.rest → ∀ y, ((v ++ y).dropWhile Text.isBlank).head? ≠ some ',') :
    Leads whole chain k (j + 1) source start d.offset e := by
  obtain ⟨u, y, hu, hat, hoff, hgo⟩ := h
  obtain rfl : c.rest = y := hc.unique (hoff ▸ hat.append)
  -- what the link takes is the same whatever the target is, and so is taken behind every cut
  have hcut (t' : Expr) (ht : Moved Expr.shift start 0 t t') := Moves.cut (fun n hn => hm n t' ht hn) (hsame t')
    (by omega) hr
  obtain ⟨_, t', -, ht, -⟩ := hgo [] _ (Cut.nil _) (Nat.le_refl _)
  obtain ⟨v, hv, hs, ho, -⟩ := hcut t' ht
  refine ⟨u ++ v, d.rest, List.append_ne_nil_of_left_ne_nil hu v, ?_, ?_, fun y' n hy hn => ?_⟩
  · rwa [List.append_assoc, ← hs]
  · rw [ho, hoff, Text.byteLength_append, Nat.add_assoc]
  have hy' : Cut c.rest (v ++ y') := ⟨by rw [hs]; exact List.prefix_append_right_inj v |>.mpr hy.1, hcomma v hv hs y'⟩
  rw [List.append_assoc] at hn
  obtain ⟨m, t', hm', ht, hwhole⟩ := hgo (v ++ y') n hy' hn
  obtain ⟨m, rfl⟩ := Nat.exists_eq_add_one_of_ne_zero (n := m) (by omega)
  obtain ⟨v', -, hs', -, hthere⟩ := hcut t' ht
  obtain rfl : v = v' := List.append_cancel_right (hs.symm.trans hs')
  obtain ⟨e', hr', he'⟩ := hthere y' (Text.byteLength u) m hy (by omega) (by omega)
  refine ⟨m, e', ?_, he', ?_⟩
  · have hpos := List.length_pos_iff.mpr hv
    rw [List.length_append] at hm'
    omega
  · rw [List.append_assoc, hwhole, hlink m t' e' _ _ hr', Text.byteLength_append]

/-! ## Properties -/

/-- One link of a chain of properties. -/
def propertyStep (n start : Nat) (target : Expr) : Reader Expr := do
  expect "."
  if ← startsWith "(" then
    let key ← parenthesized n
    return .propertyAt target key (.between start (← offset))
  else
    let name ← propertyName
    return .property target name (.between start (← offset))

theorem propertyStep_moves {b b' n' start' : Nat} {T : List Char → List Char → Prop} {t' : Expr} (hT : Tail T)
    (hn : 16 * ℓ + 1 ≤ n) (hn' : 16 * ℓ + 1 ≤ n') (hs : start + b' = start' + b) (ht : Moved Expr.shift b b' t t') :
    Moves ℓ 1 b b' T (Moved Expr.shift b b') (propertyStep n start t) (propertyStep n' start' t') := by
  have henough : Enough (max n n') 1 ℓ n n' := ⟨hn, hn', Nat.le_max_left _ _, Nat.le_max_right _ _⟩
  refine .bind_left hT (expect_one rfl) fun _ _ _ _ _ _ => .startsWith_head hT (z := 2) rfl (by decide) (by decide) ?_ ?_
  · refine .bind_left hT (parenthesized_moves _ (henough.of (by omega))) fun _ key key' _ _ hk =>
      .offset_bind fun stop stop' he => .pure ?_
    rw [Moved, Expr.shift, Expr.shift, ht, hk, between_moved hs he]
  · refine .bind hT (propertyName_moves hT) fun _ name name' _ _ hname => .offset_bind fun stop stop' he => .pure ?_
    rw [Moved, Expr.shift, Expr.shift, ht, hname, between_moved hs he]

theorem propertyStep_ok {c d : Cursor} (h : propertyStep n start t c = .ok (e, d)) :
    ∃ c₁, expect "." c = .ok ((), c₁) ∧
      ((c₁.startsWith "(" = true ∧ ∃ key, parenthesized n c₁ = .ok (key, d) ∧ e = .propertyAt t key (.between start d.offset)) ∨
        (c₁.startsWith "(" = false ∧ ∃ name, propertyName c₁ = .ok (name, d) ∧
          e = .property t name (.between start d.offset))) := by
  obtain ⟨_, c₁, hdot, h⟩ := bind_ok h
  refine ⟨c₁, hdot, ?_⟩
  obtain ⟨_, _, hs, h⟩ := bind_ok h
  cases hs
  cases hx : c₁.startsWith "(" with
  | true =>
    rw [hx] at h
    obtain ⟨key, c₂, hk, h⟩ := bind_ok (r := parenthesized n) h
    cases h
    exact .inl ⟨rfl, key, hk, rfl⟩
  | false =>
    rw [hx] at h
    obtain ⟨name, c₂, hk, h⟩ := bind_ok (r := propertyName) h
    cases h
    exact .inr ⟨rfl, name, hk, rfl⟩

/-- A chain of properties goes on where a dot is next. -/
theorem properties_eq (n start : Nat) (t : Expr) : properties (n + 1) start t = (do
    if ← startsWith "." then
      let t' ← propertyStep n start t
      properties n start t'
    else return t) := by
  funext c
  rw [properties, bind_apply]
  change _ = (ite (c.startsWith "." = true) _ _ : Reader Expr) c
  cases hdot : c.startsWith "." with
  | false => rw [accept_refused hdot]; rfl
  | true =>
    obtain ⟨rest, hs⟩ := List.isPrefixOf_iff_prefix.mp hdot
    obtain ⟨_, offset⟩ := c
    subst hs
    rw [accept_append, if_pos rfl, bind_apply, propertyStep, bind_apply, expect, bind_apply, accept_append]
    change (ite ((Cursor.mk rest _).startsWith "(" = true) _ _ : Reader Expr) _ =
      ((ite ((Cursor.mk rest _).startsWith "(" = true) _ _ : Reader Expr) _ >>= _)
    split
    · rw [bind_apply, bind_apply]
      cases parenthesized n _ <;> rfl
    · rw [bind_apply, bind_apply]
      cases propertyName _ <;> rfl

theorem properties_link {t' : Expr} {c d : Cursor} (h : propertyStep n start t c = .ok (t', d)) :
    properties (n + 1) start t c = properties n start t' d := by
  obtain ⟨c₁, hdot, -⟩ := propertyStep_ok h
  have hx : c.startsWith "." = true := by
    rw [Cursor.startsWith, (expect_ok hdot).1]
    exact List.isPrefixOf_iff_prefix.mpr (List.prefix_append _ _)
  rw [properties_eq]
  change (ite (c.startsWith "." = true) _ _ : Reader Expr) c = _
  rw [if_pos hx, bind_apply, h]
  rfl

theorem properties_stay {c : Cursor} (h : c.startsWith "." = false) : properties (n + 1) start t c = .ok (t, c) := by
  rw [properties_eq]
  change (ite (c.startsWith "." = true) _ _ : Reader Expr) c = _
  rw [if_neg (by rw [h]; nofun)]
  rfl

/-! ## Maps -/

/-- One link of a chain of maps. -/
def mapStep (n : Nat) (roundRobin : Bool) (start : Nat) (target : Expr) : Reader Expr := do
  if ← operator ":" then
    let first ← mapTarget n
    let more ← (do
      if roundRobin then mapTargets n else return [] : Reader (List Expr))
    return .map target (first :: more) (.between start (← offset))
  else fail .expectedMapTemplate

theorem mapStep_ok {roundRobin : Bool} {c d : Cursor} (h : mapStep n roundRobin start t c = .ok (e, d)) :
    ∃ c₁ c₂ first more, operator ":" c = .ok (true, c₁) ∧ mapTarget n c₁ = .ok (first, c₂) ∧
      (if roundRobin then mapTargets n else return []) c₂ = .ok (more, d) ∧
      e = .map t (first :: more) (.between start d.offset) := by
  obtain ⟨found, c₁, hcolon, h⟩ := bind_ok h
  cases found with
  | false => cases h
  | true =>
    obtain ⟨first, c₂, hfirst, h⟩ := bind_ok (r := mapTarget n) h
    obtain ⟨more, c₃, hmore, h⟩ := bind_ok h
    cases h
    exact ⟨c₁, c₂, first, more, hcolon, hfirst, hmore, rfl⟩

theorem maps_link {roundRobin : Bool} {t' : Expr} {c d : Cursor} (h : mapStep n roundRobin start t c = .ok (t', d)) :
    maps (n + 1) roundRobin start t c = maps n roundRobin start t' d := by
  obtain ⟨c₁, c₂, first, more, hcolon, hfirst, hmore, rfl⟩ := mapStep_ok h
  rw [maps, bind_eq_of_ok hcolon, if_pos rfl, bind_eq_of_ok hfirst, bind_eq_of_ok hmore]
  rfl

theorem maps_stay {roundRobin : Bool} {c : Cursor} (h : operator ":" c = .ok (false, c)) :
    maps (n + 1) roundRobin start t c = .ok (t, c) := by
  rw [maps, bind_apply, h]
  rfl

theorem maps_ok {roundRobin : Bool} {c d : Cursor} (h : maps n roundRobin start t c = .ok (e, d)) :
    (e = t ∧ d = c) ∨ ∃ m t' c', n = m + 1 ∧ mapStep m roundRobin start t c = .ok (t', c') ∧
      maps m roundRobin start t' c' = .ok (e, d) := by
  cases n with
  | zero => rw [maps] at h; cases h
  | succ n =>
    rw [maps] at h
    obtain ⟨found, c₁, ho, hr⟩ := bind_ok h
    cases found with
    | false =>
      obtain ⟨h, -⟩ | ⟨-, rfl⟩ := operator_ok ho
      · cases h
      · cases hr
        exact .inl ⟨rfl, rfl⟩
    | true =>
      obtain ⟨first, c₂, hfirst, hr⟩ := bind_ok (r := mapTarget n) hr
      obtain ⟨more, c₃, hmore, hr⟩ := bind_ok (r := if roundRobin then mapTargets n else return []) hr
      refine .inr ⟨n, _, c₃, rfl, ?_, hr⟩
      rw [mapStep, bind_eq_of_ok ho, if_pos rfl, bind_eq_of_ok hfirst, bind_eq_of_ok hmore]
      rfl

/-- An operator that is not next. -/
theorem operator_stay {token : String} {c : Cursor} (h : token.toList.isPrefixOf (c.rest.dropWhile Text.isBlank) = false) :
    operator token c = .ok (false, c) := by
  obtain ⟨found, stop, ho, rfl⟩ := operator_refuses h c.offset
  obtain ⟨hf, -⟩ | ⟨-, hd⟩ := operator_ok ho
  · cases hf
  · rw [ho, hd]

/-- An operator that is next, with the blanks around it. -/
theorem operator_split {token : String} {c d : Cursor} (h : operator token c = .ok (true, d)) :
    ∃ blank more, (∀ x ∈ blank, Text.isBlank x = true) ∧ c.rest = blank ++ (token.toList ++ (more ++ d.rest)) := by
  obtain ⟨o, e, ho, h⟩ := bind_ok h
  rw [optional] at ho
  cases hx : (do blanks; expect token; blanks : Reader Unit) c with
  | error f =>
    rw [hx] at ho
    cases ho
    cases h
  | ok p =>
    rw [hx] at ho
    cases ho
    cases h
    obtain ⟨_, c₁, hb, hx⟩ := bind_ok (d := p.2) (y := p.1) hx
    obtain ⟨_, c₂, ht, hb'⟩ := bind_ok hx
    refine ⟨c.rest.takeWhile Text.isBlank, c₂.rest.takeWhile Text.isBlank, fun x hx => List.mem_takeWhile_imp hx, ?_⟩
    rw [blanks_ok hb', List.takeWhile_append_dropWhile, ← (expect_ok ht).1, blanks_ok hb, List.takeWhile_append_dropWhile]

theorem mapTargets_stay {d : List Char} {o : Nat} (h : (d.dropWhile Text.isBlank).head? ≠ some ',') :
    mapTargets (n + 1) ⟨d, o⟩ = .ok ([], ⟨d, o⟩) := by
  rw [mapTargets, bind_eq_of_ok (operator_stay (isPrefixOf_head rfl h))]
  rfl

theorem mapStep_moves {b b' n' start' : Nat} {T : List Char → List Char → Prop} {t' : Expr} (hT : Tail T)
    (roundRobin : Bool) (hn : 16 * ℓ + 2 ≤ n) (hn' : 16 * ℓ + 2 ≤ n') (hs : start + b' = start' + b)
    (ht : Moved Expr.shift b b' t t') :
    Moves ℓ 1 b b' T (Moved Expr.shift b b') (mapStep n roundRobin start t) (mapStep n' roundRobin start' t') := by
  have henough : Enough (max n n') 2 ℓ n n' := ⟨hn, hn', Nat.le_max_left _ _, Nat.le_max_right _ _⟩
  refine .bind hT (operator_moves hT (refusedInk_head hT rfl)) fun _ found _ _ _ hf => ?_
  subst hf
  cases found with
  | false => exact .fail
  | true =>
    refine .bind_left hT (mapTarget_moves _ hT (henough.of (by omega))) fun _ first first' _ _ hfirst =>
      .bind hT (P := Moved Expr.shiftAll b b') (z := 0) ?_ fun _ more more' _ _ hmore => .offset_bind fun stop stop' he =>
      .pure ?_
    · split
      · exact mapTargets_moves _ hT (henough.of (by omega))
      · exact .pure rfl
    · rw [Moved, Expr.shift, Expr.shift, Expr.shiftAll, Expr.shiftAll, ht, hfirst, hmore, between_moved hs he]

/-- Where no comma goes on with it, a map takes turns with one template even if it might take turns with more. -/
theorem mapStep_turns {roundRobin : Bool} {c d : Cursor} (hn : 1 ≤ n) (h : mapStep n roundRobin start t c = .ok (e, d))
    (hd : (d.rest.dropWhile Text.isBlank).head? ≠ some ',') : mapStep n true start t c = .ok (e, d) := by
  cases roundRobin with
  | true => exact h
  | false =>
    obtain ⟨n, rfl⟩ := Nat.exists_eq_add_one_of_ne_zero (Nat.ne_of_gt hn)
    obtain ⟨c₁, c₂, first, more, hcolon, hfirst, hmore, rfl⟩ := mapStep_ok h
    cases hmore
    rw [mapStep, bind_eq_of_ok hcolon, if_pos rfl, bind_eq_of_ok hfirst, if_pos rfl, bind_eq_of_ok (mapTargets_stay hd)]
    rfl

/-! ## From primaries to whole expressions -/

abbrev LeadsMember : String → Nat → Nat → Expr → Prop := Leads member properties 4 2

abbrev LeadsMap : String → Nat → Nat → Expr → Prop := Leads (expression · true) (maps · true) 5 3

theorem LeadsMember.primary {c d : Cursor} (hc : RestAt source c.offset c.rest) (hn : 16 * c.rest.length + 2 ≤ n)
    (hr : primary n c = .ok (e, d)) : LeadsMember source c.offset d.offset e := by
  have hm (n') (hn' : 16 * c.rest.length + 2 ≤ n') : Moves c.rest.length 1 c.offset 0 Cut (Moved Expr.shift c.offset 0)
      (Reader.primary n) (Reader.primary n') :=
    (primary_moves _ tail_prefix ⟨hn, hn', Nat.le_max_left _ _, Nat.le_max_right _ _⟩).weaken fun _ _ h => h.1
  obtain ⟨v, hv, hs, ho, hgo⟩ := Moves.cut hm (fun ℓ n n' hn hn' =>
    primary_moves _ tail_eq ⟨hn, hn', Nat.le_max_left _ _, Nat.le_max_right _ _⟩) (Nat.le_refl _) hr
  refine ⟨v, d.rest, hv, hs ▸ hc, ho, fun y' n' hy hn' => ?_⟩
  obtain ⟨n', rfl⟩ := Nat.exists_eq_add_one_of_ne_zero (n := n') (by omega)
  obtain ⟨e', hr', he'⟩ := hgo y' 0 n' hy (Nat.zero_add _).symm (by omega)
  refine ⟨n', e', ?_, he', ?_⟩
  · rw [List.length_append] at hn'
    omega
  · rw [member]
    change (Reader.primary n' >>= _) _ = _
    rw [bind_eq_of_ok hr', Nat.zero_add]

theorem LeadsMember.property {c d : Cursor} (h : LeadsMember source start c.offset t) (hc : RestAt source c.offset c.rest)
    (hn : 16 * c.rest.length + 1 ≤ n) (hr : propertyStep n start t c = .ok (e, d)) :
    LeadsMember source start d.offset e := by
  refine Leads.link (j := 1) h hc (fun _ _ _ _ _ => properties_link) (fun n' t' ht hn' =>
    (propertyStep_moves tail_prefix hn hn' (Nat.add_comm start 0) ht).weaken fun _ _ h => h.1)
    (fun t ℓ n n' hn hn' => propertyStep_moves tail_eq hn hn' rfl rfl) hr fun v hv hs y => ?_
  obtain ⟨c₁, hdot, -⟩ := propertyStep_ok hr
  obtain ⟨x, v, rfl⟩ := List.exists_cons_of_ne_nil hv
  obtain rfl : x = '.' := (List.cons_eq_cons.mp (hs.symm.trans (expect_ok hdot).1)).1
  nofun

theorem LeadsMap.map {roundRobin : Bool} {c d : Cursor} (h : LeadsMap source start c.offset t)
    (hc : RestAt source c.offset c.rest) (hn : 16 * c.rest.length + 2 ≤ n) (hr : mapStep n roundRobin start t c = .ok (e, d)) :
    LeadsMap source start d.offset e := by
  refine Leads.link (j := 2) h hc (fun _ _ _ _ _ => maps_link) (fun n' t' ht hn' c e d hc hb hr => ?_)
    (fun t ℓ n n' hn hn' => mapStep_moves tail_eq true hn hn' rfl rfl) hr fun v hv hs y => ?_
  · obtain ⟨v, hv, hs, ho, ha, hgo⟩ := mapStep_moves tail_prefix roundRobin hn hn' (Nat.add_comm start 0) ht c e d hc hb hr
    refine ⟨v, hv, hs, ho, ha, fun d' o' hd hd' hoff => ?_⟩
    obtain ⟨e', hr', he'⟩ := hgo d' o' hd.1 hd' hoff
    exact ⟨e', mapStep_turns (by omega) hr' hd.2, he'⟩
  · -- the colon is in what is taken, and only blanks are in front of it
    obtain ⟨c₁, c₂, first, more, hcolon, hfirst, hmore, -⟩ := mapStep_ok hr
    obtain ⟨blank, rest, hb, hs'⟩ := operator_split hcolon
    have hforward : c₁.Forward d := by
      refine ((mapTarget_ahead n).forward hfirst).trans ?_
      cases roundRobin with
      | true => exact (mapTargets_ahead n).forward hmore
      | false => cases hmore; exact .refl _
    obtain ⟨w, hw, -⟩ := hforward
    have hv' : v = blank ++ ':' :: (rest ++ w) := by
      rw [hs', hw] at hs
      refine List.append_cancel_right (hs.symm.trans ?_)
      simp [show ":".toList = [':'] from rfl]
    rw [hv', List.append_assoc, List.dropWhile_append_of_pos hb]
    nofun

theorem LeadsMember.maps {c : Cursor} (h : LeadsMember source start c.offset t) (hc : RestAt source c.offset c.rest)
    (hdot : c.startsWith "." = false) : LeadsMap source start c.offset t := by
  obtain ⟨u, y, hu, hat, ho, hgo⟩ := h
  obtain rfl : c.rest = y := hc.unique (ho ▸ hat.append)
  refine ⟨u, c.rest, hu, hat, ho, fun y' n hy hn => ?_⟩
  obtain ⟨n, rfl⟩ := Nat.exists_eq_add_one_of_ne_zero (n := n) (by omega)
  obtain ⟨m, e', hm, he', hwhole⟩ := hgo y' n hy (by omega)
  obtain ⟨m, rfl⟩ := Nat.exists_eq_add_one_of_ne_zero (n := m) (by omega)
  have hstay : (Cursor.mk y' (Text.byteLength u)).startsWith "." = false := refused_head tail_prefix rfl hy.1 hdot
  rw [properties_stay hstay] at hwhole
  refine ⟨n, e', ?_, he', ?_⟩
  · have hpos := List.length_pos_iff.mpr hu
    rw [List.length_append] at hn
    omega
  · change expression (n + 1) true _ = Reader.maps n true _ _ _
    rw [expression]
    change (member n >>= _) _ = _
    rw [bind_eq_of_ok hwhole]

/-! ## Texts of expressions -/

theorem isBlank_of_opensExpression {x : Char} (h : opensExpression x = true) : Text.isBlank x = false := by
  simp only [opensExpression, Bool.or_eq_true, beq_iff_eq] at h
  obtain ((rfl | rfl) | rfl) | rfl := h <;> rfl

theorem blanks_stay {c : Cursor} {x : Char} (hc : c.rest.head? = some x) (hx : Text.isBlank x = false) :
    blanks c = .ok ((), c) := by
  obtain ⟨rest, offset⟩ := c
  obtain ⟨rest, rfl⟩ := List.head?_eq_some_iff.mp hc
  have hx' : ¬Text.isBlank x = true := by rw [hx]; nofun
  change Except.ok ((), Cursor.after _ ((x :: rest).takeWhile Text.isBlank) ((x :: rest).dropWhile Text.isBlank)) = _
  rw [List.takeWhile_cons_of_neg hx', List.dropWhile_cons_of_neg hx']
  rfl

/-- What the reader of expressions makes of a whole text is what the text is read as. -/
theorem read_of_expression {u : List Char} {k : Nat}
    (h : expression (16 * (u.length + 1)) true ⟨u, 0⟩ = .ok (e, ⟨[], k⟩)) : Expr.read (String.ofList u) = .ok e := by
  have hblanks : blanks ⟨u, 0⟩ = .ok ((), ⟨u, 0⟩) := by
    obtain ⟨_, _, _, -, hm, -⟩ := expression_ok h
    obtain ⟨_, _, _, -, hp, -⟩ := member_ok hm
    obtain ⟨x, hx, hs⟩ := primary_opens hp
    exact blanks_stay hx (hs.elim isBlank_of_opensExpression isBlank_of_startsName)
  have hlone : loneExpression (16 * (u.length + 1)) ⟨u, 0⟩ = .ok (e, ⟨[], k⟩) := by
    rw [loneExpression, bind_eq_of_ok hblanks, bind_eq_of_ok h]
    rfl
  simp only [Expr.read, run, String.toList_ofList, hlone]

/-- A part of a source that is read by itself as an expression that stands there. -/
def Reads (source : String) (start stop : Nat) (e : Expr) : Prop :=
  ∃ u y, u ≠ [] ∧ RestAt source start (u ++ y) ∧ stop = start + Text.byteLength u ∧
    ∃ e', Expr.read (String.ofList u) = .ok e' ∧ e'.shift start = e

theorem LeadsMap.reads (h : LeadsMap source start stop e) : Reads source start stop e := by
  obtain ⟨u, y, hu, hat, hstop, hgo⟩ := h
  obtain ⟨m, e', hm, he', hwhole⟩ := hgo [] (16 * (u.length + 1)) (.nil y) (by rw [List.append_nil]; omega)
  obtain ⟨m, rfl⟩ := Nat.exists_eq_add_one_of_ne_zero (n := m) (by omega)
  rw [Moved, Expr.shift_zero] at he'
  refine ⟨u, y, hu, hat, hstop, e', read_of_expression (k := Text.byteLength u) ?_, he'.symm⟩
  rw [List.append_nil] at hwhole
  exact hwhole.trans (maps_stay (operator_stay rfl))

theorem LeadsMember.reads (h : LeadsMember source start stop e) : Reads source start stop e := by
  obtain ⟨u, y, hu, hat, hstop, hgo⟩ := h
  obtain ⟨m, e', hm, he', hwhole⟩ := hgo [] (16 * u.length + 15) (.nil y) (by rw [List.append_nil]; omega)
  obtain ⟨m, rfl⟩ := Nat.exists_eq_add_one_of_ne_zero (n := m) (by omega)
  rw [Moved, Expr.shift_zero] at he'
  refine ⟨u, y, hu, hat, hstop, e', read_of_expression (k := Text.byteLength u) ?_, he'.symm⟩
  rw [List.append_nil, properties_stay rfl] at hwhole
  change expression (16 * u.length + 15 + 1) true _ = _
  rw [expression]
  change (member (16 * u.length + 15) >>= _) _ = _
  rw [bind_eq_of_ok hwhole]
  exact maps_stay (operator_stay rfl)

end Reader

/-- A call by the name of a function, which is that function elsewhere than behind a colon. -/
def Expr.CallsBuiltin : Expr → Prop
  | .call ⟨name, false⟩ _ _ => (Builtin.ofName? name).isSome = true
  | _ => False

namespace Reader

variable {n : Nat} {e : Expr} {c d : Cursor}

/-- A name is the same, whatever is said where there is none. -/
theorem name_other {fault : Fault} {s : String} (h : name fault c = .ok (s, d)) (fault' : Fault) :
    name fault' c = .ok (s, d) := by
  rw [name_eq] at h ⊢
  rw [word] at h ⊢
  split at h
  · cases h
  · split at h
    · next hx => rw [if_pos hx]; exact h
    · cases h

theorem arguments_opens {as : Arguments} (h : arguments n c = .ok (as, d)) : c.startsWith "(" = true := by
  cases n with
  | zero => rw [arguments] at h; cases h
  | succ n =>
    rw [arguments] at h
    obtain ⟨_, c₁, ho, -⟩ := bind_ok h
    rw [Cursor.startsWith, (expect_ok ho).1]
    exact List.isPrefixOf_iff_prefix.mpr (List.prefix_append _ _)

/-- What is read where a character is next. -/
def primaryFrom (n start : Nat) : Char → Reader Expr
  | '"' => do
    let text ← quoted
    return .literal text (.between start (← offset))
  | '[' => do
    expect "["
    blanks
    let items ← itemsRest n
    return .list items (.between start (← offset))
  | '\x7b' => anonymous n start
  | '(' => do
    let inner ← parenthesized n
    if ← startsWith "(" then
      let arguments ← arguments n
      return .callComputed inner arguments (.between start (← offset))
    else return .rendered inner (.between start (← offset))
  | x => if startsName x then named n start else fail .expectedExpression

theorem primaryFrom_other (n start : Nat) {x : Char} (hquote : x ≠ '"') (hlist : x ≠ '[') (hbrace : x ≠ '\x7b')
    (hpar : x ≠ '(') : primaryFrom n start x = if startsName x then named n start else fail .expectedExpression := by
  rw [primaryFrom.eq_def]
  split
  · exact absurd rfl hquote
  · exact absurd rfl hlist
  · exact absurd rfl hbrace
  · exact absurd rfl hpar
  · rfl

theorem primaryFrom_name (n start : Nat) {x : Char} (hx : startsName x = true) : primaryFrom n start x = named n start := by
  have hne (y : Char) (hy : startsName y = false) : x ≠ y := fun h => by rw [← h, hx] at hy; cases hy
  rw [primaryFrom_other n start (hne '"' rfl) (hne '[' rfl) (hne '\x7b' rfl) (hne '(' rfl), if_pos hx]

theorem primary_at (n : Nat) {c : Cursor} {x : Char} (hc : c.rest.head? = some x) :
    primary (n + 1) c = primaryFrom n c.offset x c := by
  rw [primary, bind_eq_of_ok (show offset c = .ok (c.offset, c) from rfl),
    bind_eq_of_ok (show peek? c = .ok (c.rest.head?, c) from rfl)]
  generalize c.rest.head? = o at hc
  split
  · cases hc; rfl
  · cases hc; rfl
  · cases hc; rfl
  · cases hc; rfl
  · next hquote hlist hbrace hpar =>
    cases hc
    rw [primaryFrom_other n _ hquote hlist hbrace hpar]
  · cases hc

/-- A template to map is read elsewhere as well, unless it is called by the name of a function. -/
theorem primary_of_mapTarget (h : mapTarget n c = .ok (e, d)) (he : ¬e.CallsBuiltin) :
    ∃ m, n ≤ m ∧ primary m c = .ok (e, d) := by
  cases n with
  | zero => rw [mapTarget] at h; cases h
  | succ n =>
    rw [mapTarget] at h
    obtain ⟨_, _, hs, h⟩ := bind_ok h
    cases hs
    obtain ⟨o, _, hs, h⟩ := bind_ok h
    cases hs
    generalize hc : c.rest.head? = o at h
    split at h
    · exact ⟨n + 1, Nat.le_refl _, by rw [primary_at n hc]; exact h⟩
    · obtain ⟨name, c₁, hn, h⟩ := bind_ok h
      obtain ⟨as, c₂, ha, h⟩ := bind_ok h
      cases h
      refine ⟨n + 1, Nat.le_refl _, ?_⟩
      rw [primary_at n hc]
      change (parenthesized n >>= _) c = _
      rw [bind_eq_of_ok hn, bind_eq_of_ok (show startsWith "(" c₁ = .ok (c₁.startsWith "(", c₁) from rfl),
        arguments_opens ha, if_pos rfl, bind_eq_of_ok ha]
      rfl
    · split at h
      · next hx =>
        obtain ⟨name, c₁, hn, h⟩ := bind_ok h
        refine ⟨n + 2, Nat.le_succ _, ?_⟩
        rw [primary_at (n + 1) hc, primaryFrom_name (n + 1) _ hx, named,
          bind_eq_of_ok (name_other hn .expectedExpression)]
        obtain ⟨inherited, c₂, hdot, h⟩ := bind_ok h
        rw [bind_eq_of_ok hdot]
        cases inherited with
        | true => exact h
        | false =>
          obtain ⟨as, c₃, ha, h⟩ := bind_ok (r := arguments n) h
          cases h
          have hnone : Builtin.ofName? name = none := Option.not_isSome_iff_eq_none.mp he
          rw [if_neg Bool.false_ne_true, bind_eq_of_ok (show startsWith "(" c₂ = .ok (c₂.startsWith "(", c₂) from rfl),
            arguments_opens ha, if_pos rfl, hnone]
          change (arguments n >>= _) c₂ = _
          rw [bind_eq_of_ok ha]
          rfl
      · cases h
    · cases h

end Reader

end Stencil
