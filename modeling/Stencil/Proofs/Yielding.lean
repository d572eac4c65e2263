import Stencil.Proofs.Acceptance
import Stencil.Proofs.Cuts
import Stencil.Proofs.Positions
/-! What readers yield in a source: a value that fits the places between which it is read. Trees fit if they and all
trees in them are where they say they are, and expressions are there what they are by themselves. -/

namespace Stencil

/-! ## Faithful trees -/

/-- What is passed by name. -/
def Arguments.labelled : Arguments → List NamedArgument
  | .positional _ => []
  | .named as => as

/-- The arguments that an expression passes by name. -/
def Expr.namedArguments : Expr → List NamedArgument
  | .call _ as _ | .callComputed _ as _ => as.labelled
  | _ => []

/-- The region of an expression is text of its source, which by itself is read as the expression, with regions that
start by as much earlier. As a template to map, a call by the name of a function is read in no other place. -/
def Expr.Excerpt (source : String) (mapped : Bool) (e : Expr) : Prop :=
  ∃ text, e.span.text? source = some text ∧ text ≠ "" ∧
    (¬(mapped = true ∧ e.CallsBuiltin) → ∃ e', Expr.read text = .ok e' ∧ e'.shift e.span.offset = e)

/-- A branch that starts with a tag in its source. -/
def Branch.Opens (source tag : String) (b : Branch) : Prop :=
  ∃ text, b.span.text? source = some text ∧ tag.toList <+: text.toList

/-- The regions that a tree itself has are the texts of its source that they should be. -/
def Node.Faithful (source : String) : Node → Prop
  | .expr mapped e => e.Excerpt source mapped ∧ ∀ a ∈ e.namedArguments, a.span.text? source = some a.name
  | .element (.tag _ options s) =>
    (∃ text, s.text? source = some text ∧ "<".toList <+: text.toList) ∧ ∀ o ∈ options, o.span.text? source = some o.name
  | .element (.choice (first :: more) _) => first.Opens source "<if(" ∧ ∀ b ∈ more, b.Opens source "<elseif("
  | _ => True

/-- An expression has its region between two places. -/
def Node.Between (start stop : Nat) : Node → Prop
  | .expr _ e => start ≤ e.span.offset ∧ e.span.stop ≤ stop
  | _ => True

/-- The region of an expression lies in that of another one. -/
def Node.Inside (p : Node) : Node → Prop
  | .expr _ e => p.Between e.span.offset e.span.stop
  | _ => True

/-- Everything in a part is faithful, and expressions have regions in those of the expressions that they are in. -/
def Spot.Faithful (source : String) (s : Spot) : Prop :=
  ∀ q, s.Contains q → q.node.Faithful source ∧ ∀ p, q.Contains p → p.node.Inside q.node

/-- A faithful tree the expressions of which are between two places. -/
def Node.Sound (source : String) (start stop : Nat) (n : Node) : Prop :=
  ∀ around, Spot.Faithful source ⟨around, n⟩ ∧ ∀ q, Spot.Contains ⟨around, n⟩ q → q.node.Between start stop

/-- What holds between two places holds between places further apart. -/
def Widens {γ : Type} (S : Nat → Nat → γ → Prop) : Prop :=
  ∀ ⦃start stop start' stop' x⦄, S start stop x → start' ≤ start → stop ≤ stop' → S start' stop' x

namespace Node

variable {source : String} {start start' stop stop' : Nat} {n : Node}

theorem Between.mono (h : n.Between start stop) (hs : start' ≤ start) (he : stop ≤ stop') : n.Between start' stop' := by
  cases n with
  | expr => exact ⟨hs.trans h.1, h.2.trans he⟩
  | condition | element => trivial

theorem Sound.mono (h : n.Sound source start stop) (hs : start' ≤ start) (he : stop ≤ stop') :
    n.Sound source start' stop' :=
  fun around => ⟨(h around).1, fun q hq => ((h around).2 q hq).mono hs he⟩

theorem Sound.widens {γ : Type} (g : γ → Node) :
    Widens fun start stop x => (g x).Sound source start stop := fun _ _ _ _ _ h hs he => h.mono hs he

/-- A tree is sound if it is faithful itself and what it is made of is sound. -/
theorem Sound.of (hn : n.Faithful source) (hb : n.Between start stop)
    (hi : ∀ p : Node, p.Between start stop → p.Inside n) (hp : ∀ p ∈ Spot.pieces n, p.Sound source start stop) :
    n.Sound source start stop := by
  intro around
  have hpart {p q : Spot} (h : p ∈ Spot.parts ⟨around, n⟩) (hq : p.Contains q) :
      (q.node.Faithful source ∧ ∀ p, q.Contains p → p.node.Inside q.node) ∧ q.node.Between start stop := by
    obtain ⟨m, hm, rfl⟩ := List.mem_map.mp h
    exact ⟨(hp m hm _).1 q hq, (hp m hm _).2 q hq⟩
  have hall (q : Spot) (hq : Spot.Contains ⟨around, n⟩ q) : q.node.Between start stop := by
    cases hq with
    | self => exact hb
    | part h hq => exact (hpart h hq).2
  refine ⟨fun q hq => ?_, hall⟩
  cases hq with
  | self => exact ⟨hn, fun p hp => hi p.node (hall p hp)⟩
  | part h hq => exact (hpart h hq).1

end Node

/-- An expression between two places, in which everything is sound. -/
structure Expr.Stands (source : String) (start stop : Nat) (e : Expr) : Prop where
  span : e.span = .between start stop
  names : ∀ a ∈ e.namedArguments, a.span.text? source = some a.name
  pieces : ∀ p ∈ Spot.pieces (.expr false e), p.Sound source start stop

section

variable {source : String} {start stop : Nat} {e : Expr}

theorem Span.text?_at {o m : Nat} {v rest : List Char} (h : RestAt source o (v ++ rest)) (hm : m = o + Text.byteLength v) :
    (Span.between o m).text? source = some (String.ofList v) := by
  obtain ⟨before, hs, rfl⟩ := h
  simp only [Span.text?, Span.between, Text.slice?, hm, Nat.add_sub_cancel_left, hs, Text.splitAt?_append,
    Option.bind_eq_bind, Option.bind_some, Option.pure_def, Option.map_some]

theorem Reader.Reads.excerpt (h : Reader.Reads source start stop e) (hs : e.span = .between start stop) (mapped : Bool) :
    e.Excerpt source mapped := by
  obtain ⟨u, y, hu, hat, hstop, hread⟩ := h
  exact ⟨_, hs ▸ Span.text?_at hat hstop, fun h => hu (String.ofList_eq_empty_iff.mp h), fun _ => by rw [hs]; exact hread⟩

theorem Expr.Stands.sound (h : e.Stands source start stop) (hle : start ≤ stop) {mapped : Bool}
    (he : e.Excerpt source mapped) : Node.Sound source start stop (.expr mapped e) := by
  have hb : start = e.span.offset ∧ e.span.stop = stop := by
    rw [h.span]
    exact ⟨rfl, Nat.add_sub_of_le hle⟩
  refine .of ⟨he, h.names⟩ ⟨Nat.le_of_eq hb.1, Nat.le_of_eq hb.2⟩ (fun p hp => ?_) ?_
  · rwa [Node.Inside, ← hb.1, hb.2]
  · rw [show Spot.pieces (.expr mapped e) = Spot.pieces (.expr false e) by cases e <;> rfl]
    exact h.pieces

end

namespace Node.Sound

variable {source : String} {start stop : Nat}

theorem condition {t : Condition} (h : ∀ p ∈ Spot.pieces (.condition t), p.Sound source start stop) :
    Node.Sound source start stop (.condition t) := .of trivial trivial (fun _ _ => trivial) h

theorem element {x : Element} (hx : Node.Faithful source (.element x))
    (h : ∀ p ∈ Spot.pieces (.element x), p.Sound source start stop) : Node.Sound source start stop (.element x) :=
  .of hx trivial (fun _ _ => trivial) h

theorem text (s : String) : Node.Sound source start stop (.element (.text s)) := element trivial nofun

end Node.Sound

namespace Reader

/-! ## What readers yield -/

/-- At a place of a source with at most `ℓ` characters behind it, a reader takes some text, which is not empty if
`w` is not, and gives something that fits the place where it stops. -/
def Yields {α : Type} (source : String) (ℓ w o : Nat) (Q : Nat → α → Prop) (r : Reader α) : Prop :=
  ∀ c a d, c.offset = o → c.rest.length ≤ ℓ → RestAt source o c.rest → r c = .ok (a, d) →
    ∃ v, (1 ≤ w → v ≠ []) ∧ c.rest = v ++ d.rest ∧ d.offset = o + Text.byteLength v ∧ Q d.offset a

variable {α β : Type} {source : String} {ℓ w z o : Nat} {P R : Nat → α → Prop} {Q : Nat → β → Prop} {r : Reader α}
  {f : α → Reader β}

namespace Yields

theorem pure {a : α} (h : R o a) : Yields source ℓ 0 o R (pure a) := by
  intro c x d ho _ _ hr
  cases hr
  exact ⟨[], nofun, rfl, ho, ho ▸ h⟩

theorem fail {fault : Fault} : Yields source ℓ w o R (Reader.fail fault) := nofun

theorem fail_bind {fault : Fault} : Yields source ℓ w o Q (Reader.fail fault >>= f) := nofun

theorem mono (h : Yields source ℓ w o P r) (hw : z ≤ w) (hR : ∀ m a, o ≤ m → P m a → R m a) : Yields source ℓ z o R r := by
  intro c a d ho hc hat hr
  obtain ⟨v, hv, hs, hm, ha⟩ := h c a d ho hc hat hr
  exact ⟨v, fun hz => hv (hz.trans hw), hs, hm, hR _ a (hm ▸ Nat.le_add_right _ _) ha⟩

theorem lighter (h : Yields source ℓ w o R r) (hw : z ≤ w) : Yields source ℓ z o R r := h.mono hw fun _ _ _ h => h

theorem bind_of (h : Yields source ℓ w o P r)
    (hf : ∀ ℓ' m a, ℓ' ≤ ℓ → (1 ≤ w → ℓ' < ℓ) → o ≤ m → P m a → Yields source ℓ' z m Q (f a)) :
    Yields source ℓ (max w z) o Q (r >>= f) := by
  intro c y d ho hc hat hr
  obtain ⟨a, e, hx, hr⟩ := bind_ok hr
  obtain ⟨v, hv, hs, hm, ha⟩ := h c a e ho hc hat hx
  have hlen : v.length + e.rest.length ≤ ℓ := by rwa [hs, List.length_append] at hc
  have hless : 1 ≤ w → ℓ - v.length < ℓ := fun hw => by
    have hpos := List.length_pos_iff.mpr (hv hw)
    omega
  obtain ⟨u, hu, hs', hm', hy⟩ := hf (ℓ - v.length) _ a (Nat.sub_le _ _) hless (hm ▸ Nat.le_add_right _ _) ha e y d rfl
    (by omega) (hm ▸ (hs ▸ hat).append) hr
  refine ⟨v ++ u, fun hw => ?_, by rw [hs, hs', List.append_assoc], by rw [hm', hm, Text.byteLength_append, Nat.add_assoc], hy⟩
  obtain hw | hz : 1 ≤ w ∨ 1 ≤ z := by omega
  · exact List.append_ne_nil_of_left_ne_nil (hv hw) u
  · exact List.append_ne_nil_of_right_ne_nil v (hu hz)

/-- One reader behind another. There is as much in the text as the second one takes. -/
theorem bind (h : Yields source ℓ z o P r)
    (hf : ∀ ℓ' m a, ℓ' ≤ ℓ → (1 ≤ z → ℓ' < ℓ) → o ≤ m → P m a → Yields source ℓ' w m Q (f a)) :
    Yields source ℓ w o Q (r >>= f) := (h.bind_of hf).lighter (Nat.le_max_right _ _)

/-- One reader behind another. There is as much in the text as the first one takes. -/
theorem bind_left (h : Yields source ℓ w o P r)
    (hf : ∀ ℓ' m a, ℓ' ≤ ℓ → (1 ≤ w → ℓ' < ℓ) → o ≤ m → P m a → Yields source ℓ' 0 m Q (f a)) :
    Yields source ℓ w o Q (r >>= f) := (h.bind_of hf).lighter (Nat.le_max_left _ _)

theorem map {g : α → β} (h : Yields source ℓ w o P r) (hg : ∀ m a, P m a → Q m (g a)) :
    Yields source ℓ w o Q (g <$> r) := by
  rw [← bind_pure_comp]
  exact h.bind_left fun _ m a _ _ _ ha => .pure (hg m a ha)

/-- The offset is that of a place of the source. -/
theorem offset_bind {f : Nat → Reader β} (h : ∀ rest, RestAt source o rest → Yields source ℓ w o Q (f o)) :
    Yields source ℓ w o Q (offset >>= f) := by
  rintro c y d rfl hc hat hr
  exact h _ hat c y d rfl hc hat hr

theorem get_bind {f : Cursor → Reader β} (h : ∀ c, Yields source ℓ w o Q (f c)) :
    Yields source ℓ w o Q ((get : Reader Cursor) >>= f) := fun c y d ho hc hat hr => h c c y d ho hc hat hr

theorem peek_bind {f : Option Char → Reader β} (h : ∀ x, Yields source ℓ w o Q (f x)) :
    Yields source ℓ w o Q (peek? >>= f) := fun c y d ho hc hat hr => h c.rest.head? c y d ho hc hat hr

theorem startsWith_bind {token : String} {f : Bool → Reader β} (h : ∀ found, Yields source ℓ w o Q (f found)) :
    Yields source ℓ w o Q (startsWith token >>= f) := fun c y d ho hc hat hr => h (c.startsWith token) c y d ho hc hat hr

/-- What is next is next in the source. -/
theorem startsWith_at {token : String} {f : Bool → Reader β}
    (h : ∀ rest, RestAt source o rest → Yields source ℓ w o Q (f (token.toList.isPrefixOf rest))) :
    Yields source ℓ w o Q (startsWith token >>= f) := fun c y d ho hc hat hr => h c.rest hat c y d ho hc hat hr

/-- A reader that does what one of two others does. -/
theorem of_either {r₁ r₂ : Reader α} (h : ∀ {c a d}, r c = .ok (a, d) → r₁ c = .ok (a, d) ∨ r₂ c = .ok (a, d))
    (h₁ : Yields source ℓ w o R r₁) (h₂ : Yields source ℓ w o R r₂) : Yields source ℓ w o R r :=
  fun c a d ho hc hat hr => (h hr).elim (h₁ c a d ho hc hat) (h₂ c a d ho hc hat)

/-- What is known of the runs of a reader besides. -/
theorem besides (h : Yields source ℓ w o P r) (hR : ∀ c a d, c.offset = o → c.rest.length ≤ ℓ → RestAt source o c.rest →
    r c = .ok (a, d) → P d.offset a → R d.offset a) : Yields source ℓ w o (fun m a => P m a ∧ R m a) r := by
  intro c a d ho hc hat hr
  obtain ⟨v, hv, hs, hm, ha⟩ := h c a d ho hc hat hr
  exact ⟨v, hv, hs, hm, ha, hR c a d ho hc hat hr ha⟩

theorem of_ahead (h : r.Ahead) : Yields source ℓ 0 o (fun _ _ => True) r := by
  rintro c a d rfl - - hr
  obtain ⟨v, hs, hm⟩ := h.forward hr
  exact ⟨v, nofun, hs, hm, trivial⟩

/-- Readers that take the same everywhere go forward. -/
theorem of_moves {T : List Char → List Char → Prop} {S : α → α → Prop} {r' : Reader α} (h : Moves ℓ w 0 0 T S r r') :
    Yields source ℓ w o (fun _ _ => True) r := by
  rintro c a d rfl hc - hr
  obtain ⟨v, hv, hs, hm, -, -⟩ := h c a d hc (Nat.zero_le _) hr
  exact ⟨v, hv.1, hs, hm, trivial⟩

/-! ## Rows -/

variable {γ : Type} {S : Nat → Nat → γ → Prop} {rest : Reader (List γ)}

/-- Further ones, if there are any. -/
theorem more (hS : Widens S) {found : Reader Bool} (hfound : found.Ahead)
    (h : ∀ ℓ' m, ℓ' ≤ ℓ → Yields source ℓ' 0 m (fun stop xs => ∀ x ∈ xs, S m stop x) rest) :
    Yields source ℓ 0 o (fun stop xs => ∀ x ∈ xs, S o stop x) (do if ← found then rest else return []) := by
  refine .bind (.of_ahead hfound) fun ℓ' m found hℓ _ hm _ => ?_
  split
  · exact (h ℓ' m hℓ).mono (Nat.le_refl _) fun _ xs _ h x hx => hS (h x hx) hm (Nat.le_refl _)
  · exact .pure nofun

/-- One and those behind it. -/
theorem cons (hS : Widens S) {g : α → γ} (h : Yields source ℓ w o (fun m a => S o m (g a)) r)
    (hrest : ∀ ℓ' m, ℓ' ≤ ℓ → (1 ≤ w → ℓ' < ℓ) → Yields source ℓ' 0 m (fun stop xs => ∀ x ∈ xs, S m stop x) rest) :
    Yields source ℓ w o (fun stop xs => ∀ x ∈ xs, S o stop x) (do let a ← r; return g a :: (← rest)) :=
  .bind_left h fun ℓ' m _ hℓ hlt hm ha => .bind (hrest ℓ' m hℓ hlt) fun _ _ _ _ _ hm' hxs =>
    .pure (List.forall_mem_cons.mpr ⟨hS ha (Nat.le_refl _) hm', fun x hx => hS (hxs x hx) hm (Nat.le_refl _)⟩)

end Yields

/-! ## Tokens and names -/

/-- The text of a source from a token to a place behind it. -/
theorem opens_at {token : List Char} {m : Nat} {rest rest' : List Char} (h : RestAt source o (token ++ rest))
    (hm : o + Text.byteLength token ≤ m) (h' : RestAt source m rest') :
    ∃ text, (Span.between o m).text? source = some text ∧ token <+: text.toList := by
  obtain ⟨v, rfl, hv⟩ := h.append.upTo h' hm
  refine ⟨_, Span.text?_at (v := token ++ v) (by rwa [List.append_assoc]) ?_, ?_⟩
  · rw [hv, Text.byteLength_append, Nat.add_assoc]
  · rw [String.toList_ofList]
    exact List.prefix_append _ _

theorem expect_yields {token : String} (ht : token.toList ≠ []) :
    Yields source ℓ 1 o (fun m _ => m = o + Text.byteLength token.toList ∧ ∃ rest, RestAt source o (token.toList ++ rest))
      (expect token) := by
  rintro c a d rfl hc hat hr
  obtain ⟨hs, hm⟩ := expect_ok hr
  exact ⟨token.toList, fun _ => ht, hs, hm, hm, d.rest, hs ▸ hat⟩

/-- A token is taken where it is next. -/
theorem accept_either {token : String} {f : Bool → Reader β} {c d : Cursor} {y : β}
    (h : (accept token >>= f) c = .ok (y, d)) :
    (expect token >>= fun _ => f true) c = .ok (y, d) ∨ f false c = .ok (y, d) := by
  obtain ⟨found, c', ha, hf⟩ := bind_ok h
  obtain ⟨rfl, -, -⟩ | ⟨rfl, rfl, -⟩ := accept_ok ha
  · have he : expect token c = .ok ((), c') := by
      rw [expect, bind_eq_of_ok ha]
      rfl
    exact .inl ((bind_eq_of_ok he _).trans hf)
  · exact .inr hf

theorem name_yields (fault : Fault) :
    Yields source ℓ 1 o (fun m s => (Span.between o m).text? source = some s) (name fault) := by
  rintro c s d rfl hc hat hr
  rw [name_eq, word] at hr
  split at hr
  · cases hr
  · next x rest hx =>
    split at hr
    · next hstart =>
      cases hr
      have hs : c.rest = (x :: rest).takeWhile continuesName ++ (x :: rest).dropWhile continuesName := by
        rw [List.takeWhile_append_dropWhile, hx]
      refine ⟨_, fun _ => ?_, hs, rfl, Span.text?_at (hs ▸ hat) rfl⟩
      rw [List.takeWhile_cons_of_pos (continuesName_of_startsName hstart)]
      exact List.cons_ne_nil _ _
    · cases hr

end Reader

end Stencil
