import Stencil.Proofs.Yielding
/-! Excerpts of source. Every expression of a tree that is read is what the text of its region is by itself. -/

namespace Stencil

/-- A branch that opens with a tag and in which everything is sound between two places. -/
def Branch.Sound (source tag : String) (start stop : Nat) (b : Branch) : Prop :=
  b.Opens source tag ∧ ∀ p ∈ Node.condition b.condition :: b.body.map .element, p.Sound source start stop

/-- An option the name of which is where it says and the value of which is sound between two places. -/
def TagOption.Sound (source : String) (start stop : Nat) (o : TagOption) : Prop :=
  o.span.text? source = some o.name ∧ Node.Sound source start stop (.expr false o.value)

theorem TagOption.Sound.widens {source : String} : Widens (TagOption.Sound source) :=
  fun _ _ _ _ _ h hs he => ⟨h.1, h.2.mono hs he⟩

/-- An argument the name of which is where it says and the value of which is sound between two places. -/
def NamedArgument.Sound (source : String) (start stop : Nat) (a : NamedArgument) : Prop :=
  a.span.text? source = some a.name ∧ Node.Sound source start stop (.expr false a.value)

theorem NamedArgument.Sound.widens {source : String} : Widens (NamedArgument.Sound source) :=
  fun _ _ _ _ _ h hs he => ⟨h.1, h.2.mono hs he⟩

/-- What is passed is sound between two places, and names are where they say. -/
def Arguments.Sound (source : String) (start stop : Nat) (as : Arguments) : Prop :=
  (∀ a ∈ as.labelled, a.span.text? source = some a.name) ∧
    ∀ e ∈ as.values, Node.Sound source start stop (.expr false e)

theorem Arguments.Sound.mono {source : String} {start start' stop stop' : Nat} {as : Arguments}
    (h : as.Sound source start stop) (hs : start' ≤ start) (he : stop ≤ stop') : as.Sound source start' stop' :=
  ⟨h.1, fun e hm => (h.2 e hm).mono hs he⟩

theorem Branch.Sound.widens {source tag : String} : Widens (Branch.Sound source tag) :=
  fun _ _ _ _ _ h hs he => ⟨h.1, fun p hp => (h.2 p hp).mono hs he⟩

theorem Element.mem_joinTexts {x : Element} (es : List Element) (h : x ∈ joinTexts es) : x ∈ es ∨ ∃ s, x = .text s := by
  fun_induction joinTexts es with
  | case1 => exact .inl h
  | case2 s rest t more he ih =>
    obtain rfl | h := List.mem_cons.mp h
    · exact .inr ⟨_, rfl⟩
    · exact (ih (he ▸ List.mem_cons_of_mem _ h)).imp_left (List.mem_cons_of_mem _)
  | case3 s rest hs hm ih => exact (ih h).imp_left (List.mem_cons_of_mem _)
  | case4 s rest hs hm ih =>
    obtain rfl | h := List.mem_cons.mp h
    · exact .inr ⟨_, rfl⟩
    · exact (ih h).imp_left (List.mem_cons_of_mem _)
  | case5 e rest he ih =>
    obtain rfl | h := List.mem_cons.mp h
    · exact .inl List.mem_cons_self
    · exact (ih h).imp_left (List.mem_cons_of_mem _)

namespace Reader

variable {source : String}

mutual

theorem elements_yields : (n : Nat) → {ℓ o : Nat} → (nested : Bool) → 16 * ℓ + 3 ≤ n →
    Yields source ℓ 0 o (fun m es => ∀ x ∈ es, Node.Sound source o m (.element x)) (elements n nested)
  | 0, _, _, _, h => absurd h (by omega)
  | n + 1, ℓ, o, nested, h => by
      have hrest (ℓ' m : Nat) (hℓ : ℓ' ≤ ℓ) (hlt : 1 ≤ 1 → ℓ' < ℓ) : Yields source ℓ' 0 m
          (fun stop es => ∀ x ∈ es, Node.Sound source m stop (.element x)) (elements n nested) :=
        elements_yields n nested (by omega)
      rw [elements_eq]
      refine .get_bind fun c => ?_
      split
      · exact .pure nofun
      split
      · exact .bind (.of_moves (comment_moves (T := Eq))) fun ℓ' m _ hℓ hlt hm _ => (hrest ℓ' m hℓ hlt).mono
          (Nat.le_refl _) fun _ _ _ hes x hx => (hes x hx).mono hm (Nat.le_refl _)
      split
      · exact .lighter (.cons (Node.Sound.widens Node.element) ((Yields.of_moves (special_moves tail_eq)).mono (Nat.le_refl _)
          fun _ s _ _ => .text s) hrest) (Nat.zero_le _)
      split
      · exact .lighter (.cons (Node.Sound.widens Node.element) (choice_yields n nested (by omega)) hrest) (Nat.zero_le _)
      split
      · exact .lighter (.cons (Node.Sound.widens Node.element) (tag_yields n (by omega)) hrest) (Nat.zero_le _)
      · exact .lighter (.cons (Node.Sound.widens Node.element) ((Yields.of_moves (someText_moves tail_eq nested)).mono
          (Nat.le_refl _) fun _ s _ _ => .text s) hrest) (Nat.zero_le _)
termination_by structural n => n

theorem body_yields : (n : Nat) → {ℓ o : Nat} → (nested : Bool) → 16 * ℓ + 4 ≤ n →
    Yields source ℓ 0 o (fun m es => ∀ x ∈ es, Node.Sound source o m (.element x)) (body n nested)
  | 0, _, _, _, h => absurd h (by omega)
  | n + 1, _, _, nested, h => by
      rw [body]
      refine (elements_yields n nested (by omega)).map fun m es hes x hx => ?_
      obtain hx | ⟨s, rfl⟩ := Element.mem_joinTexts es hx
      · exact hes x hx
      · exact .text s
termination_by structural n => n

theorem choice_yields : (n : Nat) → {ℓ o : Nat} → (nested : Bool) → 16 * ℓ + 2 ≤ n →
    Yields source ℓ 1 o (fun m x => Node.Sound source o m (.element x)) (choice n nested)
  | 0, _, _, _, h => absurd h (by omega)
  | n + 1, _, _, nested, h => by
      rw [choice]
      refine .bind_left (branch_yields n nested (List.cons_ne_nil '<' _) (by omega))
        fun _ m₁ first _ _ hm₁ hfirst => .bind (branches_yields n nested (by omega)) fun _ m₂ more _ _ hm₂ hmore =>
        .bind (P := fun m otherwise => ∀ x ∈ otherwise.getD [], Node.Sound source m₂ m (.element x)) (z := 0)
          (.bind (.of_ahead (accept_ahead _)) fun _ m found _ _ hm _ => ?_)
        fun _ m₃ otherwise _ _ hm₃ ho => .bind (.of_ahead (expect_ahead _)) fun _ m₄ _ _ _ hm₄ _ => .pure ?_
      · split
        · exact .bind (body_yields n nested (by omega)) fun _ _ _ _ _ _ hb => .pure fun x hx =>
            (hb x hx).mono hm (Nat.le_refl _)
        · exact .pure nofun
      · refine .element ⟨hfirst.1, fun b hb => (hmore b hb).1⟩ (List.forall_mem_append.mpr ⟨?_, ?_⟩)
        · refine List.forall_mem_flatMap.mpr (List.forall_mem_cons.mpr ⟨fun p hp => ?_, fun b hb p hp => ?_⟩)
          · exact (hfirst.2 p hp).mono (Nat.le_refl _) (by omega)
          · exact ((hmore b hb).2 p hp).mono hm₁ (by omega)
        · exact List.forall_mem_map.mpr fun x hx => (ho x hx).mono (by omega) hm₄
termination_by structural n => n

theorem branches_yields : (n : Nat) → {ℓ o : Nat} → (nested : Bool) → 16 * ℓ + 2 ≤ n →
    Yields source ℓ 0 o (fun m bs => ∀ b ∈ bs, b.Sound source "<elseif(" o m) (branches n nested)
  | 0, _, _, _, h => absurd h (by omega)
  | n + 1, _, _, nested, h => by
      rw [branches]
      refine .startsWith_bind fun found => ?_
      split
      · exact .lighter (.cons Branch.Sound.widens
          (branch_yields n nested (List.cons_ne_nil '<' _) (by omega)) fun ℓ' m hℓ hlt =>
          branches_yields n nested (by omega)) (Nat.zero_le _)
      · exact .pure nofun
termination_by structural n => n

theorem branch_yields : (n : Nat) → {ℓ o : Nat} → (nested : Bool) → {tag : String} → tag.toList ≠ [] → 16 * ℓ + 1 ≤ n →
    Yields source ℓ 1 o (fun m b => b.Sound source tag o m) (branch n nested tag)
  | 0, _, _, _, _, _, h => absurd h (by omega)
  | n + 1, _, _, nested, _, ht, h => by
      rw [branch]
      refine .offset_bind fun _ _ => .bind_left (expect_yields ht) fun _ m₁ _ hℓ hlt hm₁ hopen =>
        .bind (.of_ahead blanks_ahead) fun _ m₂ _ hℓ₂ _ hm₂ _ => .bind (condition_yields n (by omega))
        fun _ m₃ t hℓ₃ _ hm₃ hcond => .bind (.of_ahead blanks_ahead) fun _ m₄ _ hℓ₄ _ hm₄ _ =>
        .bind (.of_ahead (expect_ahead _)) fun _ m₅ _ hℓ₅ _ hm₅ _ => .offset_bind fun _ hstop =>
        .bind (body_yields n nested (by omega)) fun _ m₆ es _ _ hm₆ hes => .pure ⟨?_, ?_⟩
      · obtain ⟨hm, _, hat⟩ := hopen
        exact opens_at hat (by omega) hstop
      · exact List.forall_mem_cons.mpr ⟨hcond.mono (by omega) (by omega), List.forall_mem_map.mpr fun x hx =>
          (hes x hx).mono (by omega) (Nat.le_refl _)⟩
termination_by structural n => n

theorem tag_yields : (n : Nat) → {ℓ o : Nat} → 16 * ℓ + 1 ≤ n →
    Yields source ℓ 1 o (fun m x => Node.Sound source o m (.element x)) (tag n)
  | 0, _, _, h => absurd h (by omega)
  | n + 1, _, _, h => by
      rw [tag]
      refine .offset_bind fun _ _ => .bind_left (expect_yields (List.cons_ne_nil '<' _)) fun _ m₁ _ hℓ hlt hm₁ hopen =>
        .bind (.of_ahead blanks_ahead) fun _ m₂ _ hℓ₂ _ hm₂ _ => .bind (expression_yields n true (by omega))
        fun _ m₃ value hℓ₃ _ hm₃ hv => .bind (.of_ahead blanks_ahead) fun _ m₄ _ hℓ₄ _ hm₄ _ =>
        .bind (z := 0) (.more TagOption.Sound.widens (accept_ahead _) fun ℓ' m hℓ' => options_yields n (by omega))
        fun _ m₅ os _ _ hm₅ hos => .bind (.of_ahead (expect_ahead _)) fun _ m₆ _ _ _ hm₆ _ =>
        .offset_bind fun _ hstop => .pure (.element ⟨?_, fun o ho => (hos o ho).1⟩ ?_)
      · obtain ⟨hm, _, hat⟩ := hopen
        exact opens_at hat (by omega) hstop
      · exact List.forall_mem_cons.mpr ⟨hv.mono (by omega) (by omega), List.forall_mem_map.mpr fun o ho =>
          (hos o ho).2.mono (by omega) (by omega)⟩
termination_by structural n => n

theorem options_yields : (n : Nat) → {ℓ o : Nat} → 16 * ℓ + 1 ≤ n →
    Yields source ℓ 0 o (fun m os => ∀ x ∈ os, x.Sound source o m) (options n)
  | 0, _, _, h => absurd h (by omega)
  | n + 1, _, _, h => by
      rw [options]
      exact .bind (.of_ahead blanks_ahead) fun _ m₁ _ hℓ₁ _ hm₁ _ => .offset_bind fun _ _ =>
        .lighter (w := 1) (.bind_left (name_yields _) fun _ m₂ name hℓ₂ hlt hm₂ hname => .offset_bind fun _ _ =>
        .bind (.of_ahead blanks_ahead) fun _ m₃ _ hℓ₃ _ hm₃ _ => .bind (.of_ahead (expect_ahead _))
        fun _ m₄ _ hℓ₄ _ hm₄ _ => .bind (.of_ahead blanks_ahead) fun _ m₅ _ hℓ₅ _ hm₅ _ =>
        .bind (expression_yields n false (by omega)) fun _ m₆ value hℓ₆ _ hm₆ hv =>
        .bind (.of_ahead blanks_ahead) fun _ m₇ _ hℓ₇ _ hm₇ _ =>
        .bind (z := 0) (.more TagOption.Sound.widens (accept_ahead _) fun ℓ' m hℓ' => options_yields n (by omega))
        fun _ m₈ os _ _ hm₈ hos => .pure (List.forall_mem_cons.mpr
          ⟨⟨hname, hv.mono (by omega) (by omega)⟩, fun x hx => TagOption.Sound.widens (hos x hx) (by omega) (by omega)⟩))
        (Nat.zero_le _)
termination_by structural n => n

theorem condition_yields : (n : Nat) → {ℓ o : Nat} → 16 * ℓ + 8 ≤ n →
    Yields source ℓ 1 o (fun m t => Node.Sound source o m (.condition t)) (condition n)
  | 0, _, _, h => absurd h (by omega)
  | n + 1, _, _, h => by
      rw [condition]
      exact .bind_left (conjunction_yields n (by omega)) fun _ _ _ _ hlt hm ht => disjuncts_yields n (by omega) hm ht
termination_by structural n => n

theorem disjuncts_yields : (n : Nat) → {ℓ start o : Nat} → 16 * ℓ + 8 ≤ n → start ≤ o → {left : Condition} →
    Node.Sound source start o (.condition left) →
    Yields source ℓ 0 o (fun m t => Node.Sound source start m (.condition t)) (disjuncts n left)
  | 0, _, _, _, h, _, _, _ => absurd h (by omega)
  | n + 1, _, _, _, h, hle, left, hl => by
      rw [disjuncts]
      refine .bind (.of_ahead (operator_ahead _)) fun _ m found _ _ hm _ => ?_
      split
      · exact .bind (conjunction_yields n (by omega)) fun _ m' right _ hlt hm' hr =>
          disjuncts_yields n (by omega) (by omega) (.condition (List.forall_mem_cons.mpr
            ⟨hl.mono (Nat.le_refl _) (by omega), List.forall_mem_singleton.mpr (hr.mono (by omega) (Nat.le_refl _))⟩))
      · exact .pure (hl.mono (Nat.le_refl _) hm)
termination_by structural n => n

theorem conjunction_yields : (n : Nat) → {ℓ o : Nat} → 16 * ℓ + 7 ≤ n →
    Yields source ℓ 1 o (fun m t => Node.Sound source o m (.condition t)) (conjunction n)
  | 0, _, _, h => absurd h (by omega)
  | n + 1, _, _, h => by
      rw [conjunction]
      exact .bind_left (negation_yields n (by omega)) fun _ _ _ _ hlt hm ht => conjuncts_yields n (by omega) hm ht
termination_by structural n => n

theorem conjuncts_yields : (n : Nat) → {ℓ start o : Nat} → 16 * ℓ + 7 ≤ n → start ≤ o → {left : Condition} →
    Node.Sound source start o (.condition left) →
    Yields source ℓ 0 o (fun m t => Node.Sound source start m (.condition t)) (conjuncts n left)
  | 0, _, _, _, h, _, _, _ => absurd h (by omega)
  | n + 1, _, _, _, h, hle, left, hl => by
      rw [conjuncts]
      refine .bind (.of_ahead (operator_ahead _)) fun _ m found _ _ hm _ => ?_
      split
      · exact .bind (negation_yields n (by omega)) fun _ m' right _ hlt hm' hr =>
          conjuncts_yields n (by omega) (by omega) (.condition (List.forall_mem_cons.mpr
            ⟨hl.mono (Nat.le_refl _) (by omega), List.forall_mem_singleton.mpr (hr.mono (by omega) (Nat.le_refl _))⟩))
      · exact .pure (hl.mono (Nat.le_refl _) hm)
termination_by structural n => n

theorem negation_yields : (n : Nat) → {ℓ o : Nat} → 16 * ℓ + 6 ≤ n →
    Yields source ℓ 1 o (fun m t => Node.Sound source o m (.condition t)) (negation n)
  | 0, _, _, h => absurd h (by omega)
  | n + 1, ℓ, o, h => by
      have hplain : Yields source ℓ 1 o (fun m t => Node.Sound source o m (.condition t)) (plain n) :=
        .bind_left (expression_yields n true (by omega)) fun _ _ _ _ _ _ he => .pure
          (.condition (List.forall_mem_singleton.mpr he))
      rw [negation_eq]
      refine .of_either accept_either ?_ (.startsWith_bind fun found => ?_)
      · exact .bind_left (expect_yields (List.cons_ne_nil '!' [])) fun _ m _ _ hlt hm _ => .bind (.of_ahead blanks_ahead)
          fun _ m' _ _ _ hm' _ => .bind (negation_yields n (by omega)) fun _ _ _ _ _ _ ht => .pure
          (.condition (List.forall_mem_singleton.mpr (ht.mono (by omega) (Nat.le_refl _))))
      split
      · refine .of_either (fun h => (opened_ok h).imp_right And.right) ?_ hplain
        refine .bind_left (expect_yields (List.cons_ne_nil '(' [])) fun _ m₁ _ _ hlt hm₁ _ =>
          .bind (.of_ahead blanks_ahead) fun _ m₂ _ _ _ hm₂ _ => .bind (condition_yields n (by omega))
          fun _ m₃ t _ _ hm₃ ht => .bind (.of_ahead blanks_ahead) fun _ m₄ _ _ _ hm₄ _ =>
          .bind (.of_ahead (expect_ahead _)) fun _ m₅ _ _ _ hm₅ _ => .get_bind fun c => ?_
        split
        · exact .fail_bind
        · exact .pure (ht.mono (by omega) (by omega))
      · exact hplain
termination_by structural n => n

theorem expression_yields : (n : Nat) → {ℓ o : Nat} → (roundRobin : Bool) → 16 * ℓ + 5 ≤ n →
    Yields source ℓ 1 o (fun m e => Node.Sound source o m (.expr false e)) (expression n roundRobin)
  | 0, _, _, _, h => absurd h (by omega)
  | n + 1, _, _, roundRobin, h => by
      rw [expression]
      exact .offset_bind fun _ _ => .bind_left (member_yields n (by omega)) fun _ m t _ hlt hm ht =>
        maps_yields n roundRobin (by omega) hm ht.1 ht.2
termination_by structural n => n

theorem maps_yields : (n : Nat) → {ℓ start o : Nat} → (roundRobin : Bool) → 16 * ℓ + 3 ≤ n → start ≤ o → {t : Expr} →
    LeadsMap source start o t → t.Stands source start o →
    Yields source ℓ 0 o (fun m e => Node.Sound source start m (.expr false e)) (maps n roundRobin start t)
  | 0, _, _, _, _, h, _, _, _, _ => absurd h (by omega)
  | n + 1, ℓ, start, o, roundRobin, h, hle, t, hlead, ht => by
      have hsound : Node.Sound source start o (.expr false t) := ht.sound hle (hlead.reads.excerpt ht.span false)
      have heither {c : Cursor} {a : Expr} {d : Cursor} (h : Reader.maps (n + 1) roundRobin start t c = .ok (a, d)) :
          (pure t : Reader Expr) c = .ok (a, d) ∨
            (mapStep n roundRobin start t >>= Reader.maps n roundRobin start) c = .ok (a, d) := by
        obtain ⟨rfl, rfl⟩ | ⟨_, t', c', hn, hstep, h⟩ := maps_ok h
        · exact .inl rfl
        · cases hn
          exact .inr ((bind_eq_of_ok hstep _).trans h)
      refine .of_either heither (.pure hsound) (.lighter (w := 1) ?_ (Nat.zero_le _))
      have hstep : Yields source ℓ 1 o (fun m e => e.Stands source start m) (mapStep n roundRobin start t) := by
        refine .bind (.of_ahead (operator_ahead _)) fun _ m₁ found _ _ hm₁ _ => ?_
        split
        · refine .bind_left (mapTarget_yields n (by omega)) fun ℓ₁ m₂ first _ hlt hm₂ hfirst => .bind (z := 0)
            (P := fun m es => ∀ e ∈ es, Node.Sound source m₂ m (.expr true e)) ?_ fun _ m₃ more _ _ hm₃ hmore =>
            .offset_bind fun _ _ => .pure ⟨rfl, nofun, List.forall_mem_cons.mpr ⟨hsound.mono (Nat.le_refl _) (by omega),
              List.forall_mem_cons.mpr ⟨hfirst.mono (by omega) hm₃, List.forall_mem_map.mpr fun e he =>
                (hmore e he).mono (by omega) (Nat.le_refl _)⟩⟩⟩
          split
          · exact mapTargets_yields n (by omega)
          · exact .pure nofun
        · exact .fail
      refine .bind_left (hstep.besides (R := fun m e => LeadsMap source start m e) fun c e d ho hc hat hr _ => ?_)
        fun _ m e _ hlt hm he => maps_yields n roundRobin (by omega) (by omega) he.2 he.1
      subst ho
      exact hlead.map hat (by omega) hr
termination_by structural n => n

theorem mapTargets_yields : (n : Nat) → {ℓ o : Nat} → 16 * ℓ + 3 ≤ n →
    Yields source ℓ 0 o (fun m es => ∀ e ∈ es, Node.Sound source o m (.expr true e)) (mapTargets n)
  | 0, _, _, h => absurd h (by omega)
  | n + 1, _, _, h => by
      rw [mapTargets]
      refine .bind (.of_ahead (operator_ahead _)) fun _ m found _ _ hm _ => ?_
      split
      · exact .lighter (.mono (.cons (Node.Sound.widens (Node.expr true)) (mapTarget_yields n (by omega))
          fun ℓ' m hℓ hlt => mapTargets_yields n (by omega)) (Nat.le_refl _) fun _ _ _ hes e he =>
            (hes e he).mono hm (Nat.le_refl _)) (Nat.zero_le _)
      · exact .pure nofun
termination_by structural n => n

theorem mapTarget_yields : (n : Nat) → {ℓ o : Nat} → 16 * ℓ + 2 ≤ n →
    Yields source ℓ 1 o (fun m e => Node.Sound source o m (.expr true e)) (mapTarget n)
  | 0, _, _, h => absurd h (by omega)
  | n + 1, ℓ, o, h => by
      have hstands : Yields source ℓ 1 o (fun m e => e.Stands source o m) (mapTarget (n + 1)) := by
        rw [mapTarget]
        refine .offset_bind fun _ _ => .peek_bind fun x => ?_
        split
        · exact anonymous_yields n (by omega)
        · exact .bind_left (parenthesized_yields n (by omega)) fun _ m₁ name _ _ hm₁ hname =>
            .bind (arguments_yields n (by omega)) fun _ m₂ as _ _ hm₂ has => .offset_bind fun _ _ => .pure
              ⟨rfl, has.1, List.forall_mem_cons.mpr ⟨hname.mono (Nat.le_refl _) hm₂, List.forall_mem_map.mpr fun e he =>
                (has.2 e he).mono hm₁ (Nat.le_refl _)⟩⟩
        · split
          · refine .bind_left (name_yields _) fun _ m₁ name _ hlt hm₁ _ => .bind (.of_ahead (superDot_ahead _))
              fun _ m₂ inherited _ _ hm₂ _ => ?_
            split
            · exact .lighter (inheritedCall_yields n (by omega) (by omega)) (Nat.zero_le _)
            · exact .bind (arguments_yields n (by omega)) fun _ m₃ as _ _ hm₃ has => .offset_bind fun _ _ => .pure
                ⟨rfl, has.1, List.forall_mem_map.mpr fun e he => (has.2 e he).mono (by omega) (Nat.le_refl _)⟩
          · exact .fail
        · exact .fail
      intro c e d ho hc hat hr
      obtain ⟨v, hv, hs, hm, he⟩ := hstands c e d ho hc hat hr
      refine ⟨v, hv, hs, hm, he.sound (by omega) ?_⟩
      by_cases hb : e.CallsBuiltin
      · refine ⟨String.ofList v, he.span ▸ Span.text?_at (hs ▸ hat) hm, fun h => ?_, fun h => absurd ⟨rfl, hb⟩ h⟩
        exact hv (Nat.le_refl 1) (String.ofList_eq_empty_iff.mp h)
      · obtain ⟨k, hk, hp⟩ := primary_of_mapTarget hr hb
        subst ho
        exact (LeadsMember.primary hat (by omega) hp).reads.excerpt he.span true
termination_by structural n => n

theorem inheritedCall_yields : (n : Nat) → {ℓ start o : Nat} → 16 * ℓ + 1 ≤ n → start ≤ o →
    Yields source ℓ 1 o (fun m e => e.Stands source start m) (inheritedCall n start)
  | 0, _, _, _, h, _ => absurd h (by omega)
  | n + 1, _, _, _, h, hle => by
      rw [inheritedCall]
      exact .bind_left (name_yields _) fun _ m₁ name _ hlt hm₁ _ => .bind (arguments_yields n (by omega))
        fun _ m₂ as _ _ hm₂ has => .offset_bind fun _ _ => .pure
        ⟨rfl, has.1, List.forall_mem_map.mpr fun e he => (has.2 e he).mono (by omega) (Nat.le_refl _)⟩
termination_by structural n => n

theorem member_yields : (n : Nat) → {ℓ o : Nat} → 16 * ℓ + 4 ≤ n →
    Yields source ℓ 1 o (fun m e => LeadsMap source o m e ∧ e.Stands source o m) (member n)
  | 0, _, _, h => absurd h (by omega)
  | n + 1, ℓ, o, h => by
      rw [member]
      refine .offset_bind fun _ _ => .bind_left ((primary_yields n (by omega)).besides
        (R := fun m e => LeadsMember source o m e) fun c e d ho hc hat hr _ => ?_)
        fun _ m e _ _ hm he => properties_yields n (by omega) hm he.2 he.1
      subst ho
      exact .primary hat (by omega) hr
termination_by structural n => n

theorem properties_yields : (n : Nat) → {ℓ start o : Nat} → 16 * ℓ + 2 ≤ n → start ≤ o → {t : Expr} →
    LeadsMember source start o t → t.Stands source start o →
    Yields source ℓ 0 o (fun m e => LeadsMap source start m e ∧ e.Stands source start m) (properties n start t)
  | 0, _, _, _, h, _, _, _, _ => absurd h (by omega)
  | n + 1, ℓ, start, o, h, hle, t, hlead, ht => by
      have hsound : Node.Sound source start o (.expr false t) := ht.sound hle (hlead.reads.excerpt ht.span false)
      have hstep : Yields source ℓ 1 o (fun m e => e.Stands source start m) (propertyStep n start t) := by
        refine .bind_left (expect_yields (List.cons_ne_nil '.' [])) fun _ m₁ _ _ hlt hm₁ _ => .startsWith_bind fun found => ?_
        split
        · exact .lighter (.bind_left (parenthesized_yields n (by omega)) fun _ m₂ key _ _ hm₂ hk => .offset_bind fun _ _ =>
            .pure ⟨rfl, nofun, List.forall_mem_cons.mpr ⟨hsound.mono (Nat.le_refl _) (by omega),
              List.forall_mem_singleton.mpr (hk.mono (by omega) (Nat.le_refl _))⟩⟩) (Nat.zero_le _)
        · exact .bind (.of_ahead propertyName_ahead) fun _ m₂ name _ _ hm₂ _ => .offset_bind fun _ _ => .pure
            ⟨rfl, nofun, List.forall_mem_singleton.mpr (hsound.mono (Nat.le_refl _) (by omega))⟩
      rw [properties_eq]
      refine .startsWith_at fun rest hat => ?_
      split
      · refine .lighter (.bind_left (hstep.besides (R := fun m e => LeadsMember source start m e)
          fun c e d ho hc hat hr _ => ?_) fun _ m e _ hlt hm he => properties_yields n (by omega) (by omega) he.2 he.1)
          (Nat.zero_le _)
        subst ho
        exact hlead.property hat (by omega) hr
      · next hdot => exact .pure ⟨hlead.maps (c := ⟨rest, o⟩) hat (Bool.eq_false_iff.mpr hdot), ht⟩
termination_by structural n => n

theorem primary_yields : (n : Nat) → {ℓ o : Nat} → 16 * ℓ + 2 ≤ n →
    Yields source ℓ 1 o (fun m e => e.Stands source o m) (primary n)
  | 0, _, _, h => absurd h (by omega)
  | n + 1, _, o, h => by
      rw [primary]
      refine .offset_bind fun _ _ => .peek_bind fun x => ?_
      split
      · exact .bind_left (.of_moves (quoted_moves (T := Eq))) fun _ m s _ _ _ _ => .offset_bind fun _ _ => .pure
          ⟨rfl, nofun, nofun⟩
      · refine .bind_left (expect_yields (List.cons_ne_nil '[' [])) fun ℓ₁ m₁ _ _ hlt hm₁ _ =>
          .bind (.of_ahead blanks_ahead) fun _ m₂ _ _ _ hm₂ _ => .bind (z := 0)
          (P := fun m es => ∀ e ∈ es, Node.Sound source m₂ m (.expr false e)) ?_ fun _ m₃ items _ _ hm₃ hi =>
          .offset_bind fun _ _ => .pure ⟨rfl, nofun, List.forall_mem_map.mpr fun e he =>
            (hi e he).mono (by omega) (Nat.le_refl _)⟩
        refine .bind (.of_ahead (accept_ahead _)) fun _ m₃ found _ _ hm₃ _ => ?_
        split
        · exact .pure nofun
        · exact .bind (listItems_yields n (by omega)) fun _ m₄ items _ _ hm₄ hi => .bind (.of_ahead blanks_ahead)
            fun _ m₅ _ _ _ hm₅ _ => .bind (.of_ahead (expect_ahead _)) fun _ m₆ _ _ _ hm₆ _ => .pure fun e he =>
            (hi e he).mono (by omega) (by omega)
      · exact anonymous_yields n (by omega)
      · refine .bind_left (parenthesized_yields n (by omega)) fun _ m₁ inner _ _ hm₁ hi => .startsWith_bind fun found => ?_
        split
        · exact .bind (arguments_yields n (by omega)) fun _ m₂ as _ _ hm₂ has => .offset_bind fun _ _ => .pure
            ⟨rfl, has.1, List.forall_mem_cons.mpr ⟨hi.mono (Nat.le_refl _) hm₂, List.forall_mem_map.mpr fun e he =>
              (has.2 e he).mono hm₁ (Nat.le_refl _)⟩⟩
        · exact .offset_bind fun _ _ => .pure ⟨rfl, nofun, List.forall_mem_singleton.mpr hi⟩
      · split
        · exact named_yields n (by omega)
        · exact .fail
      · exact .fail
termination_by structural n => n

theorem named_yields : (n : Nat) → {ℓ o : Nat} → 16 * ℓ + 1 ≤ n →
    Yields source ℓ 1 o (fun m e => e.Stands source o m) (named n o)
  | 0, _, _, h => absurd h (by omega)
  | n + 1, _, o, h => by
      rw [named]
      refine .bind_left (name_yields _) fun _ m₁ name _ hlt hm₁ _ => .bind (.of_ahead (superDot_ahead _))
        fun _ m₂ inherited _ _ hm₂ _ => ?_
      split
      · exact .lighter (inheritedCall_yields n (by omega) (by omega)) (Nat.zero_le _)
      refine .startsWith_bind fun found => ?_
      split
      · split
        · exact .lighter (.bind_left (parenthesized_yields n (by omega)) fun _ m₃ argument _ _ hm₃ ha => .offset_bind
            fun _ _ => .pure ⟨rfl, nofun, List.forall_mem_singleton.mpr (ha.mono (by omega) (Nat.le_refl _))⟩)
            (Nat.zero_le _)
        · exact .bind (arguments_yields n (by omega)) fun _ m₃ as _ _ hm₃ has => .offset_bind fun _ _ => .pure
            ⟨rfl, has.1, List.forall_mem_map.mpr fun e he => (has.2 e he).mono (by omega) (Nat.le_refl _)⟩
      · refine .offset_bind fun _ _ => .pure ?_
        split
        · exact ⟨rfl, nofun, nofun⟩
        split
        · exact ⟨rfl, nofun, nofun⟩
        · exact ⟨rfl, nofun, nofun⟩
termination_by structural n => n

theorem parenthesized_yields : (n : Nat) → {ℓ o : Nat} → 16 * ℓ + 1 ≤ n →
    Yields source ℓ 1 o (fun m e => Node.Sound source o m (.expr false e)) (parenthesized n)
  | 0, _, _, h => absurd h (by omega)
  | n + 1, _, _, h => by
      rw [parenthesized]
      exact .bind_left (expect_yields (List.cons_ne_nil '(' [])) fun _ m₁ _ _ hlt hm₁ _ => .bind (.of_ahead blanks_ahead)
        fun _ m₂ _ _ _ hm₂ _ => .bind (expression_yields n true (by omega)) fun _ m₃ e _ _ hm₃ he =>
        .bind (.of_ahead blanks_ahead) fun _ m₄ _ _ _ hm₄ _ => .bind (.of_ahead (expect_ahead _))
        fun _ m₅ _ _ _ hm₅ _ => .pure (he.mono (by omega) (by omega))
termination_by structural n => n

theorem arguments_yields : (n : Nat) → {ℓ o : Nat} → 16 * ℓ + 1 ≤ n →
    Yields source ℓ 0 o (fun m as => as.Sound source o m) (arguments n)
  | 0, _, _, h => absurd h (by omega)
  | n + 1, _, _, h => by
      rw [arguments]
      refine .lighter (w := 1) (.bind_left (expect_yields (List.cons_ne_nil '(' [])) fun _ m₁ _ _ hlt hm₁ _ =>
        .bind (.of_ahead blanks_ahead) fun _ m₂ _ _ _ hm₂ _ => .bind (.of_ahead (accept_ahead _))
        fun _ m₃ found _ _ hm₃ _ => ?_) (Nat.zero_le _)
      split
      · exact .pure ⟨nofun, nofun⟩
      refine .bind (z := 0) (P := fun m as => as.Sound source m₃ m) (.get_bind fun c => ?_) fun _ m₄ as _ _ hm₄ has =>
        .bind (.of_ahead blanks_ahead) fun _ m₅ _ _ _ hm₅ _ => .bind (.of_ahead (expect_ahead _))
        fun _ m₆ _ _ _ hm₆ _ => .pure (has.mono (by omega) (by omega))
      split
      · exact .bind (namedArguments_yields n (by omega)) fun _ _ _ _ _ _ has => .pure
          ⟨fun a ha => (has a ha).1, List.forall_mem_map.mpr fun a ha => (has a ha).2⟩
      · exact .bind (positionalArguments_yields n (by omega)) fun _ _ _ _ _ _ hes => .pure ⟨nofun, hes⟩
termination_by structural n => n

theorem namedArguments_yields : (n : Nat) → {ℓ o : Nat} → 16 * ℓ + 1 ≤ n →
    Yields source ℓ 0 o (fun m as => ∀ a ∈ as, a.Sound source o m) (namedArguments n)
  | 0, _, _, h => absurd h (by omega)
  | n + 1, _, _, h => by
      rw [namedArguments]
      refine .get_bind fun c => ?_
      split
      · exact .lighter (w := 1) (.offset_bind fun _ _ => .bind_left (name_yields _) fun _ m₁ name _ hlt hm₁ hname =>
          .offset_bind fun _ _ => .bind (.of_ahead blanks_ahead) fun _ m₂ _ _ _ hm₂ _ =>
          .bind (.of_ahead (expect_ahead _)) fun _ m₃ _ _ _ hm₃ _ => .bind (.of_ahead blanks_ahead)
          fun _ m₄ _ _ _ hm₄ _ => .bind (expression_yields n false (by omega)) fun _ m₅ value _ _ hm₅ hv =>
          .bind (z := 0) (.more NamedArgument.Sound.widens comma_ahead fun ℓ' m hℓ' => namedArguments_yields n (by omega))
          fun _ m₆ as _ _ hm₆ has => .pure (List.forall_mem_cons.mpr ⟨⟨hname, hv.mono (by omega) (by omega)⟩,
            fun a ha => NamedArgument.Sound.widens (has a ha) (by omega) (by omega)⟩)) (Nat.zero_le _)
      · exact .fail_bind
termination_by structural n => n

theorem positionalArguments_yields : (n : Nat) → {ℓ o : Nat} → 16 * ℓ + 6 ≤ n →
    Yields source ℓ 0 o (fun m es => ∀ e ∈ es, Node.Sound source o m (.expr false e)) (positionalArguments n)
  | 0, _, _, h => absurd h (by omega)
  | n + 1, _, _, h => by
      rw [positionalArguments]
      refine .get_bind fun c => ?_
      split
      · exact .fail_bind
      · exact .lighter (.cons (Node.Sound.widens (Node.expr false)) (expression_yields n false (by omega)) fun ℓ' m hℓ hlt =>
          .more (Node.Sound.widens (Node.expr false)) comma_ahead fun ℓ'' m' hℓ' => positionalArguments_yields n (by omega))
          (Nat.zero_le _)
termination_by structural n => n

theorem listItems_yields : (n : Nat) → {ℓ o : Nat} → 16 * ℓ + 6 ≤ n →
    Yields source ℓ 0 o (fun m es => ∀ e ∈ es, Node.Sound source o m (.expr false e)) (listItems n)
  | 0, _, _, h => absurd h (by omega)
  | n + 1, _, _, h => by
      rw [listItems]
      exact .lighter (.cons (Node.Sound.widens (Node.expr false)) (expression_yields n false (by omega)) fun ℓ' m hℓ hlt =>
        .more (Node.Sound.widens (Node.expr false)) comma_ahead fun ℓ'' m' hℓ' => listItems_yields n (by omega)) (Nat.zero_le _)
termination_by structural n => n

theorem anonymous_yields : (n : Nat) → {ℓ o : Nat} → 16 * ℓ + 1 ≤ n →
    Yields source ℓ 1 o (fun m e => e.Stands source o m) (anonymous n o)
  | 0, _, _, h => absurd h (by omega)
  | n + 1, _, _, h => by
      rw [anonymous]
      exact .bind_left (expect_yields (List.cons_ne_nil '\x7b' [])) fun _ m₁ _ _ hlt hm₁ _ => .bind (.of_ahead parameter_ahead)
        fun _ m₂ parameter _ _ hm₂ _ => .bind (body_yields n true (by omega)) fun _ m₃ body _ _ hm₃ hb =>
        .bind (.of_ahead (expect_ahead _)) fun _ m₄ _ _ _ hm₄ _ => .offset_bind fun _ _ => .pure
        ⟨rfl, nofun, List.forall_mem_map.mpr fun x hx => (hb x hx).mono (by omega) (by omega)⟩
termination_by structural n => n

end

/-- What a reader yields in front of everything is what is read. -/
theorem run_yields {α : Type} {reader : Nat → Reader α} {R : Nat → α → Prop} {a : α} (h : run reader source = .ok a)
    (hr : ∀ n ℓ, 16 * (ℓ + 1) ≤ n → Yields source ℓ 0 0 R (reader n)) : ∃ m, R m a := by
  unfold run at h
  dsimp only at h
  split at h
  · cases h
  · next a' d hd =>
    split at h
    · cases h
      obtain ⟨_, -, -, -, ha⟩ := hr _ source.toList.length (Nat.le_refl _) _ _ _ rfl (Nat.le_refl _) ⟨[], rfl, rfl⟩ hd
      exact ⟨_, ha⟩
    · cases h

end Reader

/-- Everything in a body that is read is faithful. -/
theorem Element.faithful_of_read {source : String} {body : List Element} (h : Element.readAll source = .ok body) :
    ∀ x ∈ body, Spot.Faithful source ⟨[], .element x⟩ := by
  obtain ⟨m, hb⟩ := Reader.run_yields (R := fun m es => ∀ x ∈ es, Node.Sound source 0 m (.element x)) h fun n ℓ hn =>
    .bind (Reader.body_yields n false (by omega)) fun _ _ _ _ _ _ hb => .get_bind fun c => by
      split
      · exact .fail_bind
      · exact .pure fun x hx => (hb x hx).mono (Nat.zero_le _) (Nat.le_refl _)
  exact fun x hx => (hb x hx []).1

/-- Every expression of a source, in a body or by itself, has for its region a part of the source that by itself is
read as that expression, inside the regions of the expressions around it. Tags, branches and names have the regions
in which they are written. -/
theorem excerpts_faithful (source : String) :
    (∀ body, Element.readAll source = .ok body → ∀ x ∈ body, Spot.Faithful source ⟨[], .element x⟩) ∧
      ∀ e, Expr.read source = .ok e → Spot.Faithful source ⟨[], .expr false e⟩ := by
  refine ⟨fun body h => Element.faithful_of_read h, fun e h => ?_⟩
  obtain ⟨m, he⟩ := Reader.run_yields (R := fun m e => Node.Sound source 0 m (.expr false e)) h fun n ℓ hn =>
    .bind (.of_ahead Reader.blanks_ahead) fun _ _ _ _ _ _ _ => .lighter (.bind_left
      (Reader.expression_yields n true (by omega)) fun _ _ _ _ _ _ he => .bind (.of_ahead Reader.blanks_ahead)
      fun _ _ _ _ _ hm _ => .pure (he.mono (Nat.zero_le _) hm)) (Nat.zero_le _)
  exact (he []).1

theorem excerpts_faithful_greeting :
    (∃ body, Element.readAll "<if(a)>é<f(k=b.c):first(); separator=\",\"><elseif(!d)><[d]><endif>" = .ok body ∧
      ∀ x ∈ body, Spot.Faithful "<if(a)>é<f(k=b.c):first(); separator=\",\"><elseif(!d)><[d]><endif>" ⟨[], .element x⟩) ∧
      ∃ e, Expr.read "xs:\x7bx|é<x>\x7d" = .ok e ∧ Spot.Faithful "xs:\x7bx|é<x>\x7d" ⟨[], .expr false e⟩ := by
  have hbody : (Element.readAll "<if(a)>é<f(k=b.c):first(); separator=\",\"><elseif(!d)><[d]><endif>").isOk = true := by
    decide +kernel
  have hexpr : (Expr.read "xs:\x7bx|é<x>\x7d").isOk = true := by decide +kernel
  refine ⟨?_, ?_⟩
  · cases h : Element.readAll "<if(a)>é<f(k=b.c):first(); separator=\",\"><elseif(!d)><[d]><endif>" with
    | error e => rw [h] at hbody; cases hbody
    | ok body => exact ⟨body, rfl, (excerpts_faithful _).1 body h⟩
  · cases h : Expr.read "xs:\x7bx|é<x>\x7d" with
    | error e => rw [h] at hexpr; cases hexpr
    | ok e => exact ⟨e, rfl, (excerpts_faithful _).2 e h⟩

end Stencil
