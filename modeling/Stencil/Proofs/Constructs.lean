import Stencil.Proofs.Excerpts
/-! The constructs of a source, each with its region. They begin where their regions do. -/

namespace Stencil

/-! ## Constructs -/

/-- What a tree has a region for: an expression, possibly a template to map, a computed name, a named argument, an
option, a tag, or a branch of a conditional, possibly the first. -/
inductive Construct where
  | expr (mapped : Bool) (e : Expr)
  | name (e : Expr)
  | argument (a : NamedArgument)
  | option (o : TagOption)
  | tag (value : Expr) (options : List TagOption) (span : Span)
  | branch (first : Bool) (b : Branch)

namespace Construct

def span : Construct → Span
  | .expr _ e | .name e => e.span
  | .argument a => a.span
  | .option o => o.span
  | .tag _ _ s => s
  | .branch _ b => b.span

/-- In a source, a construct begins where its region does. -/
def Begins (source : String) : Construct → Prop
  | .expr mapped e => e.Excerpt source mapped
  | .name e => e.Excerpt source false
  | .argument a => a.span.text? source = some a.name ∧ isName a.name = true
  | .option o => o.span.text? source = some o.name ∧ isName o.name = true
  | .tag _ _ s => ∃ text, s.text? source = some text ∧ "<".toList <+: text.toList
  | .branch first b => b.Opens source (if first then "<if(" else "<elseif(")

/-- Carrying out an instruction is the work of a construct. -/
inductive Executes : Construct → Instr String Code → Prop where
  | attribute {mapped name s} : Executes (.expr mapped (.attribute name s)) (.pushAttribute name)
  | literal {mapped text s} : Executes (.expr mapped (.literal text s)) (.pushText text)
  | truth {mapped b s} : Executes (.expr mapped (.truth b s)) (.pushTruth b)
  | list {mapped items s} : Executes (.expr mapped (.list items s)) (.list items.length)
  | property {mapped target name s} : Executes (.expr mapped (.property target name s)) (.property name)
  | propertyAt {mapped target key s} : Executes (.expr mapped (.propertyAt target key s)) .propertyAt
  | call {mapped callee arguments s} : Executes (.expr mapped (.call callee arguments s))
      (.create callee.name callee.inherited arguments.passing)
  | callComputed {mapped name arguments s} : Executes (.expr mapped (.callComputed name arguments s))
      (.createComputed arguments.passing)
  | rendered {mapped value s} : Executes (.expr mapped (.rendered value s)) .render
  | builtin {mapped function argument s} : Executes (.expr mapped (.builtin function argument s)) (.builtin function)
  | anonymous {mapped parameter body s inner} :
      Executes (.expr mapped (.anonymous parameter body s)) (.createAnonymous inner)
  | map {mapped target templates s} : Executes (.expr mapped (.map target templates s)) (.map templates.length)
  | name {e} : Executes (.name e) .render
  | argument {a} : Executes (.argument a) (.pushText a.name)
  | tag {value options s} : Executes (.tag value options s) (.write (TagOption.present options))
  | test {first b target} : Executes (.branch first b) (.jumpUnless target)
  | exit {first b target} : Executes (.branch first b) (.jump target)

/-- A problem is one of a construct. -/
inductive Raises : Construct → Problem → Prop where
  | attribute {mapped name s candidates} :
      Raises (.expr mapped (.attribute name s)) (.noSuchAttribute name candidates)
  | callee {mapped callee arguments s candidates} :
      Raises (.expr mapped (.call callee arguments s)) (.noSuchTemplate callee candidates)
  | tooMany {mapped callee values s declared} : Raises (.expr mapped (.call callee (.positional values) s))
      (.tooManyArguments values.length callee.name declared)
  | positional {callee values s} :
      Raises (.expr true (.call callee (.positional values) s)) (.positionalMapArguments callee.name)
  | computed {name values s} :
      Raises (.expr true (.callComputed name (.positional values) s)) (.positionalMapArguments "(...)")
  | receiver {callee arguments s} : Raises (.expr true (.call callee arguments s)) (.noReceiver callee.name)
  | parameter {a template} : Raises (.argument a) (.noSuchParameter template a.name)
  | duplicate {a template} : Raises (.argument a) (.duplicateArgument a.name template)
  | option {o} : Raises (.option o) (.noSuchOption o.name)
  | again {o} : Raises (.option o) (.duplicateOption o.name)

end Construct

/-- The computed name of what an expression calls. -/
def Expr.computedNames : Expr → List Expr
  | .callComputed name _ _ => [name]
  | _ => []

/-- The constructs that a tree itself is. -/
def Node.constructs : Node → List Construct
  | .expr mapped e => .expr mapped e :: (e.computedNames.map .name ++ e.namedArguments.map .argument)
  | .element (.tag value options s) => .tag value options s :: options.map .option
  | .element (.choice (first :: more) _) => .branch true first :: more.map (.branch false)
  | _ => []

/-- A set of trees has the trees that its trees are made of. -/
def Node.Closed (R : Node → Prop) : Prop := ∀ n, R n → ∀ p ∈ Spot.pieces n, R p

/-- A construct of one of some trees. -/
def Construct.Of (R : Node → Prop) (c : Construct) : Prop := ∃ n, R n ∧ c ∈ n.constructs

/-- A tree in a source, at any depth. -/
def Node.In (source : String) (n : Node) : Prop :=
  ∃ body, Element.readAll source = .ok body ∧ ∃ x ∈ body, ∃ around, Spot.Contains ⟨[], .element x⟩ ⟨around, n⟩

theorem Spot.Contains.piece {root : Spot} {around : List String} {n p : Node} (h : root.Contains ⟨around, n⟩)
    (hp : p ∈ pieces n) : root.Contains ⟨inside around n, p⟩ := by
  generalize hs : Spot.mk around n = s at h
  induction h with
  | self =>
    subst hs
    exact .part (List.mem_map_of_mem hp) (.self _)
  | part hm _ ih => exact .part hm (ih hs)

theorem Node.closed_in (source : String) : Node.Closed (Node.In source) := by
  rintro n ⟨body, hb, x, hx, around, hn⟩ p hp
  exact ⟨body, hb, x, hx, _, hn.piece hp⟩

/-! ## Where constructs begin -/

section

variable {P : Span → Prop}

theorem Expr.ProperAll.mem {es : List Expr} (h : Expr.ProperAll P es) : ∀ e ∈ es, e.Proper P := by
  induction es with
  | nil => exact List.forall_mem_nil _
  | cons e rest ih => exact List.forall_mem_cons.mpr ⟨h.1, ih h.2⟩

theorem NamedArgument.ProperAll.mem {as : List NamedArgument} (h : NamedArgument.ProperAll P as) :
    ∀ a ∈ as, a.value.Proper P ∧ isName a.name = true := by
  induction as with
  | nil => exact List.forall_mem_nil _
  | cons a rest ih =>
    cases a
    exact List.forall_mem_cons.mpr ⟨⟨h.1, h.2.2.2⟩, ih h.2.2.1⟩

theorem TagOption.ProperAll.mem {os : List TagOption} (h : TagOption.ProperAll P os) :
    ∀ o ∈ os, o.value.Proper P ∧ isName o.name = true := by
  induction os with
  | nil => exact List.forall_mem_nil _
  | cons o rest ih =>
    cases o
    exact List.forall_mem_cons.mpr ⟨⟨h.1, h.2.2.2⟩, ih h.2.2.1⟩

theorem Element.ProperAll.mem {es : List Element} (h : Element.ProperAll P es) : ∀ e ∈ es, e.Proper P := by
  induction es with
  | nil => exact List.forall_mem_nil _
  | cons e rest ih => exact List.forall_mem_cons.mpr ⟨h.1, ih h.2⟩

theorem Branch.ProperAll.mem {bs : List Branch} (h : Branch.ProperAll P bs) :
    ∀ b ∈ bs, b.condition.Proper P ∧ ∀ e ∈ b.body, e.Proper P := by
  induction bs with
  | nil => exact List.forall_mem_nil _
  | cons b rest ih =>
    cases b
    exact List.forall_mem_cons.mpr ⟨⟨h.1, h.2.1.mem⟩, ih h.2.2.2⟩

/-- What is passed is proper. -/
theorem Arguments.Proper.mem {as : Arguments} (h : as.Proper P) :
    (∀ e ∈ as.values, e.Proper P) ∧ ∀ a ∈ as.labelled, isName a.name = true := by
  cases as with
  | positional values => exact ⟨Expr.ProperAll.mem h, List.forall_mem_nil _⟩
  | named values =>
    exact ⟨List.forall_mem_map.mpr fun a ha => (NamedArgument.ProperAll.mem h a ha).1,
      fun a ha => (NamedArgument.ProperAll.mem h a ha).2⟩

/-- A tree that is proper. -/
def Node.Proper (P : Span → Prop) : Node → Prop
  | .expr _ e => e.Proper P
  | .condition c => c.Proper P
  | .element e => e.Proper P

theorem Node.closed_proper : Node.Closed (Node.Proper P)
  | .expr _ (.attribute _ _), _ | .expr _ (.literal _ _), _ | .expr _ (.truth _ _), _ => List.forall_mem_nil _
  | .expr _ (.list _ _), h => List.forall_mem_map.mpr (Expr.ProperAll.mem h.1)
  | .expr _ (.property _ _ _), h | .expr _ (.rendered _ _), h | .expr _ (.builtin _ _ _), h =>
      List.forall_mem_singleton.mpr h.1
  | .expr _ (.propertyAt _ _ _), h => List.forall_mem_cons.mpr ⟨h.1, List.forall_mem_singleton.mpr h.2.1⟩
  | .expr _ (.call _ _ _), h => List.forall_mem_map.mpr (Arguments.Proper.mem h.1).1
  | .expr _ (.callComputed _ _ _), h =>
      List.forall_mem_cons.mpr ⟨h.1, List.forall_mem_map.mpr (Arguments.Proper.mem h.2.1).1⟩
  | .expr _ (.anonymous _ _ _), h => List.forall_mem_map.mpr (Element.ProperAll.mem h.1)
  | .expr _ (.map _ _ _), h => List.forall_mem_cons.mpr ⟨h.1, List.forall_mem_map.mpr (Expr.ProperAll.mem h.2.1)⟩
  | .condition (.value _), h => List.forall_mem_singleton.mpr h
  | .condition (.not _), h => List.forall_mem_singleton.mpr h
  | .condition (.and _ _), h | .condition (.or _ _), h =>
      List.forall_mem_cons.mpr ⟨h.1, List.forall_mem_singleton.mpr h.2⟩
  | .element (.text _), _ => List.forall_mem_nil _
  | .element (.tag _ _ _), h =>
      List.forall_mem_cons.mpr ⟨h.1, List.forall_mem_map.mpr fun o ho => (TagOption.ProperAll.mem h.2.1 o ho).1⟩
  | .element (.choice _ none), h => List.forall_mem_append.mpr ⟨List.forall_mem_flatMap.mpr fun b hb =>
      have ⟨hc, he⟩ := Branch.ProperAll.mem h.1 b hb
      List.forall_mem_cons.mpr ⟨hc, List.forall_mem_map.mpr he⟩, List.forall_mem_nil _⟩
  | .element (.choice _ (some _)), h => List.forall_mem_append.mpr ⟨List.forall_mem_flatMap.mpr fun b hb =>
      have ⟨hc, he⟩ := Branch.ProperAll.mem h.1 b hb
      List.forall_mem_cons.mpr ⟨hc, List.forall_mem_map.mpr he⟩,
        List.forall_mem_map.mpr (Element.ProperAll.mem h.2)⟩

end

/-- Trees that some trees are made of are in a set that has what its trees are made of. -/
theorem Node.Closed.contains {R : Node → Prop} (hR : Node.Closed R) {s q : Spot} (h : s.Contains q) (hs : R s.node) :
    R q.node := by
  induction h with
  | self => exact hs
  | part hm _ ih =>
    obtain ⟨n, hn, rfl⟩ := List.mem_map.mp hm
    exact ih (hR _ hs n hn)

namespace Node.In

variable {source : String} {n : Node}

theorem proper (h : n.In source) : n.Proper (Span.Within source) := by
  obtain ⟨body, hb, x, hx, _, hn⟩ := h
  exact closed_proper.contains hn (Element.ProperAll.mem (.ofRead hb) x hx)

theorem faithful (h : n.In source) : n.Faithful source := by
  obtain ⟨body, hb, x, hx, _, hn⟩ := h
  exact (Element.faithful_of_read hb x hx _ hn).1

end Node.In

/-- The arguments that an expression passes by name have names. -/
theorem Expr.Proper.namedArguments {P : Span → Prop} {e : Expr} (h : e.Proper P) :
    ∀ a ∈ e.namedArguments, isName a.name = true := by
  cases e with
  | call callee arguments s => exact (Arguments.Proper.mem h.1).2
  | callComputed name arguments s => exact (Arguments.Proper.mem h.2.1).2
  | _ => exact nofun

/-- The constructs of a source begin where their regions do. -/
theorem Construct.Of.begins {source : String} {c : Construct} (h : c.Of (Node.In source)) : c.Begins source := by
  obtain ⟨n, hn, hc⟩ := h
  have hf := hn.faithful
  have hp := hn.proper
  cases n with
  | expr mapped e =>
    rcases List.mem_cons.mp hc with rfl | hc
    · exact hf.1
    rcases List.mem_append.mp hc with hc | hc
    · obtain ⟨name, hname, rfl⟩ := List.mem_map.mp hc
      cases e with
      | callComputed nm arguments s =>
        obtain rfl := List.mem_singleton.mp hname
        exact (Node.closed_in source _ hn (.expr false name) List.mem_cons_self).faithful.1
      | _ => cases hname
    · obtain ⟨a, ha, rfl⟩ := List.mem_map.mp hc
      exact ⟨hf.2 a ha, Expr.Proper.namedArguments hp a ha⟩
  | condition c => cases hc
  | element x =>
    cases x with
    | text s => cases hc
    | tag value options s =>
      rcases List.mem_cons.mp hc with rfl | hc
      · exact hf.1
      · obtain ⟨o, ho, rfl⟩ := List.mem_map.mp hc
        exact ⟨hf.2 o ho, (TagOption.ProperAll.mem hp.2.1 o ho).2⟩
    | choice branches otherwise =>
      cases branches with
      | nil => cases hc
      | cons first more =>
        rcases List.mem_cons.mp hc with rfl | hc
        · exact hf.1
        · obtain ⟨b, hb, rfl⟩ := List.mem_map.mp hc
          exact hf.2 b hb

/-! ## Places -/

/-- A region that has a text is where that text is. -/
theorem Span.of_text? {s : Span} {source text : String} (h : s.text? source = some text) :
    ∃ before after, source.toList = before ++ (text.toList ++ after) ∧ s.offset = Text.byteLength before ∧
      s.length = Text.byteLength text.toList := by
  obtain ⟨part, hpart, rfl⟩ := Option.map_eq_some_iff.mp h
  rw [Text.slice?] at hpart
  obtain ⟨⟨before, rest⟩, hb, hpart⟩ := Option.bind_eq_some_iff.mp hpart
  obtain ⟨⟨inside, after⟩, hi, hpart⟩ := Option.bind_eq_some_iff.mp hpart
  cases hpart
  rw [String.toList_ofList]
  refine ⟨before, after, ?_, (Text.byteLength_of_splitAt? hb).symm, (Text.byteLength_of_splitAt? hi).symm⟩
  rw [Text.append_of_splitAt? hi, Text.append_of_splitAt? hb]

theorem Construct.Begins.text {source : String} {c : Construct} (h : c.Begins source) :
    ∃ text, c.span.text? source = some text ∧ text ≠ "" := by
  have hname {s : Span} {name : String} (h : s.text? source = some name ∧ isName name = true) :
      ∃ text, s.text? source = some text ∧ text ≠ "" := by
    refine ⟨name, h.1, ?_⟩
    rintro rfl
    cases h.2
  have htag {s : Span} {t : String} (ht : t.toList ≠ [])
      (h : ∃ text, s.text? source = some text ∧ t.toList <+: text.toList) :
      ∃ text, s.text? source = some text ∧ text ≠ "" := by
    obtain ⟨text, hs, hp⟩ := h
    refine ⟨text, hs, ?_⟩
    rintro rfl
    exact ht (List.prefix_nil.mp hp)
  cases c with
  | expr mapped e =>
    obtain ⟨text, hs, hne, -⟩ := h
    exact ⟨text, hs, hne⟩
  | name e =>
    obtain ⟨text, hs, hne, -⟩ := h
    exact ⟨text, hs, hne⟩
  | argument a => exact hname h
  | option o => exact hname h
  | tag value options s => exact htag (t := "<") (by decide) h
  | branch first b =>
    refine htag ?_ h
    cases first <;> decide

/-- A location is where a construct of a source begins, between two characters, and as long as the construct, which is
not empty. -/
structure Location.Points (l : Location) (source : String) (c : Construct) : Prop where
  located : l = .inSource source c.span.offset c.span.length
  begins : c.Begins source
  offset : l.offset = c.span.offset
  place : ∃ before, IsPlace source l.offset before
  length : 1 ≤ l.length

theorem Construct.Of.points {source : String} {c : Construct} (h : c.Of (Node.In source)) :
    (Location.inSource source c.span.offset c.span.length).Points source c := by
  obtain ⟨text, ht, hne⟩ := h.begins.text
  obtain ⟨before, after, hs, ho, hl⟩ := Span.of_text? ht
  have hplace : Location.IsPlace source c.span.offset before := ⟨_, hs, ho⟩
  have hlen : 0 < c.span.length := by
    rw [hl, ← Text.utf8ByteSize_eq]
    exact Nat.pos_of_ne_zero fun h => hne (String.utf8ByteSize_eq_zero_iff.mp h)
  refine ⟨rfl, h.begins, ?_, ⟨before, ?_⟩, ?_⟩
  · rw [hplace.inSource_eq]
  · rw [hplace.inSource_eq]
    exact hplace
  · rw [hplace.inSource_eq]
    exact hlen

end Stencil
