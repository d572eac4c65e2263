import Stencil.Proofs.Mending
/-! Which templates compile. What a template may say is a rule for each of its parts, and the templates in
which every part obeys its rule are the ones that compile. -/

namespace Stencil

/-- A name that a template with these parameters may refer to and its callers may pass. -/
def Formals.Knows (f : Formals) (name : String) : Prop :=
  f.isOpen = true ∨ name ∈ implicit ∨ ∃ p ∈ f.parameters, p.name = name

/-- What is passed, in the order in which it is written. -/
def Arguments.values : Arguments → List Expr
  | .positional values => values
  | .named values => values.map NamedArgument.value

/-- The names that something is passed by. -/
def Arguments.names : Arguments → List String
  | .positional _ => []
  | .named values => values.map NamedArgument.name

/-- The sorts of trees that a template is made of. An expression may stand as a template to map. -/
inductive Node where
  | expr (mapped : Bool) (e : Expr)
  | condition (c : Condition)
  | element (e : Element)

/-- A part of a template, and the parameters of the templates without a name around it. -/
structure Spot where
  around : List String
  node : Node

namespace Spot

/-- The trees that a tree is directly made of, the templates without a name apart. -/
def pieces : Node → List Node
  | .expr _ (.attribute _ _) | .expr _ (.literal _ _) | .expr _ (.truth _ _) => []
  | .expr _ (.list items _) => items.map (.expr false)
  | .expr _ (.property target _ _) => [.expr false target]
  | .expr _ (.propertyAt target key _) => [.expr false target, .expr false key]
  | .expr _ (.call _ arguments _) => arguments.values.map (.expr false)
  | .expr _ (.callComputed name arguments _) => .expr false name :: arguments.values.map (.expr false)
  | .expr _ (.rendered value _) => [.expr false value]
  | .expr _ (.builtin _ argument _) => [.expr false argument]
  | .expr _ (.anonymous _ body _) => body.map .element
  | .expr _ (.map target templates _) => .expr false target :: templates.map (.expr true)
  | .condition (.value e) => [.expr false e]
  | .condition (.not c) => [.condition c]
  | .condition (.and a b) | .condition (.or a b) => [.condition a, .condition b]
  | .element (.text _) => []
  | .element (.tag value options _) => .expr false value :: options.map fun o => .expr false o.value
  | .element (.choice branches otherwise) =>
    (branches.flatMap fun b => .condition b.condition :: b.body.map .element) ++
      (otherwise.getD []).map .element

/-- The parameters of the templates without a name that are around the pieces of a tree. -/
def inside (around : List String) : Node → List String
  | .expr _ (.anonymous parameter _ _) => around ++ [parameter.getD Formals.element]
  | _ => around

def parts (s : Spot) : List Spot := (pieces s.node).map (Spot.mk (inside s.around s.node))

/-- A part is in another one, at any depth, or is that one. -/
inductive Contains : Spot → Spot → Prop where
  | self (s : Spot) : Contains s s
  | part {s p q : Spot} : p ∈ s.parts → Contains p q → Contains s q

/-- The rule of a part. Attributes are in scope, calls are of templates that take what is passed, and tags
have the options that there are, each once. -/
def Obeys (d : Directory) (formals : Formals) (s : Spot) : Prop :=
  match s.node with
  | .expr _ (.attribute name _) => formals.Knows name ∨ name ∈ s.around
  | .expr mapped (.call callee arguments _) =>
    ∃ f, d.find? callee = some f ∧
      (mapped = false → arguments.passed ≤ f.size) ∧
      (mapped = true → arguments.passed = 0 ∧ (f.isOpen = true ∨ f.parameters ≠ [])) ∧
      arguments.names.Nodup ∧ ∀ name ∈ arguments.names, f.Knows name
  | .expr mapped (.callComputed _ arguments _) =>
    (mapped = true → arguments.passed = 0) ∧ arguments.names.Nodup
  | .element (.tag _ options _) =>
    (∀ o ∈ options, o.name ∈ TagOption.allowed) ∧ (options.map TagOption.name).Nodup
  | _ => True

/-- Everything in a part obeys its rule. -/
def Formed (d : Directory) (formals : Formals) (s : Spot) : Prop := ∀ q, s.Contains q → q.Obeys d formals

theorem formed_iff {d : Directory} {formals : Formals} (s : Spot) :
    s.Formed d formals ↔ s.Obeys d formals ∧
      ∀ n ∈ pieces s.node, (Spot.mk (inside s.around s.node) n).Formed d formals := by
  constructor
  · intro h
    exact ⟨h s (.self s), fun n hn q hq => h q (.part (List.mem_map_of_mem hn) hq)⟩
  · rintro ⟨hs, hp⟩ q hq
    cases hq with
    | self => exact hs
    | part hm hq =>
      obtain ⟨n, hn, rfl⟩ := List.mem_map.mp hm
      exact hp n hn q hq

end Spot

/-! ## Names -/

theorem Formals.accepts_iff (f : Formals) (name : String) : f.accepts name = true ↔ f.Knows name := by
  cases f with
  | any => simp [accepts, Knows, isOpen]
  | declared ps => simp [accepts, Knows, isOpen, parameters]

theorem Formals.ofNames_knows (names : List String) (name : String) :
    (ofNames names).Knows name ↔ name ∈ implicit ∨ name ∈ names := by
  simp [← accepts_iff, accepts, ofNames]

/-- What is in scope behind the parameters of templates without a name. -/
def Scope.behind (d : Directory) (formals : Formals) (around : List String) : Scope :=
  ⟨d, formals :: around.map fun p => .ofNames [p]⟩

namespace Scope

variable (d : Directory) (formals : Formals) (around : List String)

theorem behind_enter (parameter : String) :
    (behind d formals around).enter (.ofNames [parameter]) = behind d formals (around ++ [parameter]) := by
  simp [behind, enter]

theorem behind_accepts (name : String) :
    (behind d formals around).accepts name = true ↔ formals.Knows name ∨ name ∈ around := by
  simp only [accepts, behind, List.any_cons, List.any_map, Bool.or_eq_true, List.any_eq_true, Function.comp_apply,
    Formals.accepts_iff, Formals.ofNames_knows, List.mem_singleton]
  constructor
  · rintro (h | ⟨p, hp, h | rfl⟩)
    · exact .inl h
    · exact .inl (.inr (.inl h))
    · exact .inr hp
  · rintro (h | h)
    · exact .inl h
    · exact .inr ⟨name, h, .inr rfl⟩

end Scope

/-! ## Calls and options -/

theorem callFindings_eq_nil {d : Directory} {mapped : Bool} {callee : Callee} {arguments : Arguments}
    {span : Span} : callFindings d mapped callee arguments span = [] ↔
      ∃ f, d.find? callee = some f ∧ (mapped = false → arguments.passed ≤ f.size) ∧
        (mapped = true → arguments.passed = 0 ∧ (f.isOpen = true ∨ f.parameters ≠ [])) := by
  cases hd : d.find? callee with
  | none => simp [callFindings, hd]
  | some f =>
    rw [callFindings_some hd]
    cases mapped with
    | false => simp
    | true => simp [Formals.size, Classical.or_iff_not_imp_left]

theorem Expr.findingsAll_eq_nil (s : Scope) (mapped : Bool) (es : List Expr) :
    Expr.findingsAll s mapped es = [] ↔ ∀ e ∈ es, e.findings s mapped = [] := by
  induction es with
  | nil => simp [findingsAll]
  | cons e es ih => simp [findingsAll, ih]

theorem Element.findingsAll_eq_nil (s : Scope) (es : List Element) :
    Element.findingsAll s es = [] ↔ ∀ e ∈ es, e.findings s = [] := by
  induction es with
  | nil => simp [findingsAll]
  | cons e es ih => simp [findingsAll, ih]

theorem Branch.findingsAll_eq_nil (s : Scope) (bs : List Branch) :
    Branch.findingsAll s bs = [] ↔
      ∀ b ∈ bs, b.condition.findings s = [] ∧ ∀ e ∈ b.body, e.findings s = [] := by
  induction bs with
  | nil => simp [findingsAll]
  | cons b bs ih =>
    cases b
    simp [findingsAll, Element.findingsAll_eq_nil, ih, and_assoc]

namespace NamedArgument

theorem nameFindings_eq_nil {callee : Option (String × Formals)} {seen : List String} {name : String}
    {span : Span} : nameFindings callee seen name span = [] ↔
      name ∉ seen ∧ ∀ c ∈ callee, c.2.Knows name := by
  by_cases hs : name ∈ seen
  · simp [nameFindings, hs]
  · cases callee with
    | none => simp [nameFindings, hs]
    | some c => simp [nameFindings, hs, ← Formals.accepts_iff]

/-- Nothing is found in named arguments whose names are different, new and known to the callee, and in whose
values nothing is found. -/
theorem findingsAll_eq_nil (s : Scope) (callee : Option (String × Formals)) (seen : List String)
    (as : List NamedArgument) : findingsAll s callee seen as = [] ↔
      ((as.map name).Nodup ∧ (∀ n ∈ as.map name, n ∉ seen) ∧ ∀ n ∈ as.map name, ∀ c ∈ callee, c.2.Knows n) ∧
        ∀ e ∈ as.map value, e.findings s false = [] := by
  induction as generalizing seen with
  | nil => simp [findingsAll]
  | cons a as ih =>
    cases a
    rw [findingsAll_cons, List.append_eq_nil_iff, List.append_eq_nil_iff, nameFindings_eq_nil, ih]
    simp only [List.map_cons, List.nodup_cons, List.mem_cons, not_or]
    grind

end NamedArgument

namespace TagOption

theorem nameFindings_eq_nil (seen : List String) (os : List TagOption) :
    nameFindings seen os = [] ↔
      (∀ o ∈ os, o.name ∈ allowed) ∧ (os.map TagOption.name).Nodup ∧ ∀ n ∈ os.map TagOption.name, n ∉ seen := by
  induction os generalizing seen with
  | nil => simp [nameFindings]
  | cons o os ih =>
    simp only [nameFindings, List.map_cons, List.nodup_cons, List.forall_mem_cons]
    split
    · simp_all
    · split
      · simp_all
      · rw [ih]
        simp only [List.mem_cons, not_or]
        grind

theorem valueFindings_eq_nil (s : Scope) (wanted : String) {os : List TagOption}
    (hn : (os.map TagOption.name).Nodup) : valueFindings s wanted os = [] ↔
      ∀ o ∈ os, o.name = wanted → o.value.findings s false = [] := by
  induction os with
  | nil => simp [valueFindings]
  | cons o os ih =>
    cases o with | mk name value span =>
    obtain ⟨ho, hos⟩ := List.nodup_cons.mp hn
    rw [valueFindings, List.forall_mem_cons]
    by_cases h : name = wanted
    · subst h
      have hrest : ∀ o ∈ os, o.name = name → o.value.findings s false = [] := fun o hm he =>
        absurd (List.mem_map.mpr ⟨o, hm, he⟩) ho
      simpa using fun _ => hrest
    · simp [h, ih hos]

/-- Where the options of a tag are as they may be, each is the first of its name. So nothing is found in
their values if nothing is found in the three that are looked at. -/
theorem findings_eq_nil (s : Scope) (os : List TagOption) :
    (nameFindings [] os = [] ∧ valueFindings s "separator" os = [] ∧ valueFindings s "format" os = [] ∧
      valueFindings s "null" os = []) ↔
    ((∀ o ∈ os, o.name ∈ allowed) ∧ (os.map TagOption.name).Nodup) ∧ ∀ o ∈ os, o.value.findings s false = [] := by
  rw [nameFindings_eq_nil]
  constructor
  · rintro ⟨⟨ha, hn, -⟩, hs, hf, hz⟩
    refine ⟨⟨ha, hn⟩, fun o ho => ?_⟩
    have hname : o.name = "separator" ∨ o.name = "format" ∨ o.name = "null" := by simpa [allowed] using ha o ho
    rcases hname with h | h | h
    · exact (valueFindings_eq_nil s _ hn).mp hs o ho h
    · exact (valueFindings_eq_nil s _ hn).mp hf o ho h
    · exact (valueFindings_eq_nil s _ hn).mp hz o ho h
  · rintro ⟨⟨ha, hn⟩, hv⟩
    have hclear (wanted : String) : valueFindings s wanted os = [] :=
      (valueFindings_eq_nil s wanted hn).mpr fun o ho _ => hv o ho
    exact ⟨⟨ha, hn, fun _ _ => List.not_mem_nil⟩, hclear _, hclear _, hclear _⟩

end TagOption

theorem Arguments.findings_eq_nil (s : Scope) (callee : Option (String × Formals)) (as : Arguments) :
    as.findings s callee = [] ↔
      (as.names.Nodup ∧ ∀ n ∈ as.names, ∀ c ∈ callee, c.2.Knows n) ∧
        ∀ e ∈ as.values, e.findings s false = [] := by
  cases as with
  | positional es => simp [findings, names, values, Expr.findingsAll_eq_nil]
  | named as => simp [findings, names, values, NamedArgument.findingsAll_eq_nil]

theorem Element.tag_findings_eq_nil (s : Scope) (value : Expr) (options : List TagOption) (span : Span) :
    (Element.tag value options span).findings s = [] ↔
      ((∀ o ∈ options, o.name ∈ TagOption.allowed) ∧ (options.map TagOption.name).Nodup) ∧
        value.findings s false = [] ∧ ∀ o ∈ options, o.value.findings s false = [] := by
  rw [findings, and_left_comm, ← TagOption.findings_eq_nil]
  simp only [List.append_eq_nil_iff, and_assoc]

theorem Element.choice_findings_eq_nil (s : Scope) (branches : List Branch) (otherwise : Option (List Element)) :
    (Element.choice branches otherwise).findings s = [] ↔
      (∀ b ∈ branches, b.condition.findings s = [] ∧ ∀ e ∈ b.body, e.findings s = []) ∧
        ∀ e ∈ otherwise.getD [], e.findings s = [] := by
  cases otherwise with
  | none => simp [findings, Branch.findingsAll_eq_nil]
  | some body => simp [findings, Branch.findingsAll_eq_nil, findingsAll_eq_nil]

/-! ## Every part of a template -/

namespace Spot

/-- What is found in a tree at a place. -/
def findings (d : Directory) (formals : Formals) (s : Spot) : List Finding :=
  match s.node with
  | .expr mapped e => e.findings (.behind d formals s.around) mapped
  | .condition c => c.findings (.behind d formals s.around)
  | .element e => e.findings (.behind d formals s.around)

variable {d : Directory} {formals : Formals}

/-- Nothing is found in a part if it obeys its rule and nothing is found in the parts it is directly made of. -/
theorem findings_eq_nil : (s : Spot) →
    (s.findings d formals = [] ↔ s.Obeys d formals ∧
      ∀ n ∈ pieces s.node, (Spot.mk (inside s.around s.node) n).findings d formals = [])
  | ⟨_, .expr _ (.attribute _ _)⟩ => by
      simp [findings, Obeys, pieces, Expr.findings, ← Scope.behind_accepts d]
  | ⟨_, .expr _ (.call _ _ _)⟩ => by
      simp only [findings, Obeys, pieces, inside, Expr.findings, List.append_eq_nil_iff, callFindings_eq_nil,
        Arguments.findings_eq_nil, List.forall_mem_map, Scope.behind, Option.mem_def, Option.map_eq_some_iff]
      constructor
      · rintro ⟨⟨f, hf, hu, hm⟩, ⟨hn, hk⟩, hv⟩
        exact ⟨⟨f, hf, hu, hm, hn, fun n h => hk n h _ ⟨f, hf, rfl⟩⟩, hv⟩
      · rintro ⟨⟨f, hf, hu, hm, hn, hk⟩, hv⟩
        refine ⟨⟨f, hf, hu, hm⟩, ⟨hn, fun n h c hc => ?_⟩, hv⟩
        obtain ⟨f', hf', rfl⟩ := hc
        cases hf.symm.trans hf'
        exact hk n h
  | ⟨around, .expr _ (.callComputed name arguments span)⟩ => by
      cases arguments <;>
        simp [findings, Obeys, pieces, inside, Expr.findings, Arguments.findings_eq_nil, Arguments.passed, and_assoc,
          and_left_comm]
  | ⟨_, .expr _ (.anonymous _ _ _)⟩ => by
      simp [findings, Obeys, pieces, inside, Expr.findings, Element.findingsAll_eq_nil, Scope.behind_enter]
  | ⟨_, .expr _ (.literal _ _)⟩ | ⟨_, .expr _ (.truth _ _)⟩ | ⟨_, .expr _ (.list _ _)⟩
  | ⟨_, .expr _ (.property _ _ _)⟩ | ⟨_, .expr _ (.propertyAt _ _ _)⟩ | ⟨_, .expr _ (.rendered _ _)⟩
  | ⟨_, .expr _ (.builtin _ _ _)⟩ | ⟨_, .expr _ (.map _ _ _)⟩ => by
      simp [findings, Obeys, pieces, inside, Expr.findings, Expr.findingsAll_eq_nil]
  | ⟨_, .condition (.value _)⟩ | ⟨_, .condition (.not _)⟩ | ⟨_, .condition (.and _ _)⟩
  | ⟨_, .condition (.or _ _)⟩ => by
      simp [findings, Obeys, pieces, inside, Condition.findings]
  | ⟨_, .element (.tag _ _ _)⟩ => by
      simp only [findings, Obeys, pieces, inside, Element.tag_findings_eq_nil, List.forall_mem_cons,
        List.forall_mem_map]
  | ⟨_, .element (.text _)⟩ => by
      simp [findings, Obeys, pieces, Element.findings]
  | ⟨_, .element (.choice _ _)⟩ => by
      simp only [findings, Obeys, pieces, inside, Element.choice_findings_eq_nil, List.forall_mem_append,
        List.forall_mem_flatMap, List.forall_mem_cons, List.forall_mem_map, true_and]

end Spot

/-- A part is as said if those that it is directly made of are. -/
def Spot.Hereditary (P : Spot → Prop) : Prop :=
  ∀ s, (∀ n ∈ pieces s.node, P ⟨inside s.around s.node, n⟩) → P s

section

variable {P : Spot → Prop}

mutual

/-- What is hereditary holds of all parts. -/
theorem Expr.inAll (h : Spot.Hereditary P) : (e : Expr) → ∀ around mapped, P ⟨around, .expr mapped e⟩
  | .attribute _ _, _, _ | .literal _ _, _, _ | .truth _ _, _, _ => h _ nofun
  | .list items _, _, _ => h _ <| List.forall_mem_map.mpr fun e he => Expr.inAlls h items e he _ _
  | .property target _ _, _, _ => h _ <| List.forall_mem_singleton.mpr (target.inAll h _ _)
  | .propertyAt target key _, _, _ =>
      h _ <| List.forall_mem_cons.mpr ⟨target.inAll h _ _, List.forall_mem_singleton.mpr (key.inAll h _ _)⟩
  | .call _ arguments _, _, _ => h _ <| List.forall_mem_map.mpr fun e he => arguments.inAll h e he _ _
  | .callComputed name arguments _, _, _ =>
      h _ <| List.forall_mem_cons.mpr
        ⟨name.inAll h _ _, List.forall_mem_map.mpr fun e he => arguments.inAll h e he _ _⟩
  | .rendered value _, _, _ => h _ <| List.forall_mem_singleton.mpr (value.inAll h _ _)
  | .builtin _ argument _, _, _ => h _ <| List.forall_mem_singleton.mpr (argument.inAll h _ _)
  | .anonymous _ body _, _, _ => h _ <| List.forall_mem_map.mpr fun e he => Element.inAlls h body e he _
  | .map target templates _, _, _ =>
      h _ <| List.forall_mem_cons.mpr
        ⟨target.inAll h _ _, List.forall_mem_map.mpr fun e he => Expr.inAlls h templates e he _ _⟩

theorem Expr.inAlls (h : Spot.Hereditary P) : (es : List Expr) →
    ∀ e ∈ es, ∀ around mapped, P ⟨around, .expr mapped e⟩
  | [] => nofun
  | e :: rest => List.forall_mem_cons.mpr ⟨e.inAll h, Expr.inAlls h rest⟩

theorem Arguments.inAll (h : Spot.Hereditary P) : (as : Arguments) →
    ∀ e ∈ as.values, ∀ around mapped, P ⟨around, .expr mapped e⟩
  | .positional es => Expr.inAlls h es
  | .named as => NamedArgument.inAlls h as

theorem NamedArgument.inAlls (h : Spot.Hereditary P) : (as : List NamedArgument) →
    ∀ e ∈ as.map NamedArgument.value, ∀ around mapped, P ⟨around, .expr mapped e⟩
  | [] => nofun
  | ⟨_, e, _⟩ :: rest => List.forall_mem_cons.mpr ⟨e.inAll h, NamedArgument.inAlls h rest⟩

theorem TagOption.inAlls (h : Spot.Hereditary P) : (os : List TagOption) →
    ∀ o ∈ os, ∀ around mapped, P ⟨around, .expr mapped o.value⟩
  | [] => nofun
  | ⟨_, e, _⟩ :: rest => List.forall_mem_cons.mpr ⟨e.inAll h, TagOption.inAlls h rest⟩

theorem Condition.inAll (h : Spot.Hereditary P) : (c : Condition) → ∀ around, P ⟨around, .condition c⟩
  | .value e, _ => h _ <| List.forall_mem_singleton.mpr (e.inAll h _ _)
  | .not c, _ => h _ <| List.forall_mem_singleton.mpr (c.inAll h _)
  | .and a b, _ | .or a b, _ =>
      h _ <| List.forall_mem_cons.mpr ⟨a.inAll h _, List.forall_mem_singleton.mpr (b.inAll h _)⟩

theorem Element.inAll (h : Spot.Hereditary P) : (e : Element) → ∀ around, P ⟨around, .element e⟩
  | .text _, _ => h _ nofun
  | .tag value options _, _ =>
      h _ <| List.forall_mem_cons.mpr
        ⟨value.inAll h _ _, List.forall_mem_map.mpr fun o ho => TagOption.inAlls h options o ho _ _⟩
  | .choice branches none, _ =>
      h _ <| List.forall_mem_append.mpr
        ⟨List.forall_mem_flatMap.mpr fun b hb => Branch.inAlls h branches b hb _, nofun⟩
  | .choice branches (some body), _ =>
      h _ <| List.forall_mem_append.mpr
        ⟨List.forall_mem_flatMap.mpr fun b hb => Branch.inAlls h branches b hb _,
          List.forall_mem_map.mpr fun e he => Element.inAlls h body e he _⟩

theorem Element.inAlls (h : Spot.Hereditary P) : (es : List Element) →
    ∀ e ∈ es, ∀ around, P ⟨around, .element e⟩
  | [] => nofun
  | e :: rest => List.forall_mem_cons.mpr ⟨e.inAll h, Element.inAlls h rest⟩

theorem Branch.inAlls (h : Spot.Hereditary P) : (bs : List Branch) → ∀ b ∈ bs, ∀ around,
    ∀ n ∈ Node.condition b.condition :: b.body.map .element, P ⟨around, n⟩
  | [] => nofun
  | ⟨condition, body, _⟩ :: rest =>
      List.forall_mem_cons.mpr ⟨fun _ => List.forall_mem_cons.mpr
        ⟨condition.inAll h _, List.forall_mem_map.mpr fun e he => Element.inAlls h body e he _⟩,
          Branch.inAlls h rest⟩

end

namespace Spot

theorem Hereditary.all (h : Hereditary P) : (s : Spot) → P s
  | ⟨around, .expr mapped e⟩ => e.inAll h around mapped
  | ⟨around, .condition c⟩ => c.inAll h around
  | ⟨around, .element e⟩ => e.inAll h around

/-- Everything in a part obeys its rule if nothing is found in it. -/
theorem formed_iff_findings {d : Directory} {formals : Formals} (s : Spot) :
    s.Formed d formals ↔ s.findings d formals = [] := by
  have hereditary : Hereditary fun s => s.Formed d formals ↔ s.findings d formals = [] := fun s ih =>
    (formed_iff s).trans ((and_congr_right fun _ => forall₂_congr ih).trans (findings_eq_nil s).symm)
  exact hereditary.all s

end Spot

end

/-! ## Reading and compiling -/

theorem Formals.forall_readDefaults (f : Formals) (P : String × Except SyntaxError Expr → Prop) :
    (∀ x ∈ f.readDefaults, P x) ↔
      ∀ p ∈ f.parameters, ∀ text, p.default = some text → P (p.name, Expr.read text) := by
  simp only [readDefaults, List.mem_filterMap, Option.map_eq_some_iff]
  constructor
  · intro h p hp text ht
    exact h _ ⟨p, hp, text, ht, rfl⟩
  · rintro h _ ⟨p, hp, text, ht, rfl⟩
    exact h p hp text ht

namespace Template

/-- A template is read if its body and all defaults are. -/
theorem read_ok_iff {name source : String} {formals : Formals} {P : List Element → Prop} {Q : Expr → Prop} :
    (∃ t, read name formals source = .ok t ∧ (∀ e ∈ t.defaults, Q e.2) ∧ P t.body) ↔
      ∃ body, Element.readAll source = .ok body ∧ P body ∧
        ∀ p ∈ formals.parameters, ∀ text, p.default = some text → ∃ e, Expr.read text = .ok e ∧ Q e := by
  constructor
  · rintro ⟨t, ht, hq, hp⟩
    unfold read at ht
    split at ht
    · cases ht
    · rename_i body hb
      dsimp only at ht
      split at ht
      · rename_i hfaults
        cases ht
        rw [List.isEmpty_iff, List.filterMap_eq_nil_iff, Formals.forall_readDefaults] at hfaults
        refine ⟨body, hb, hp, fun p hm text ht => ?_⟩
        have hread := hfaults p hm text ht
        dsimp only at hread
        split at hread
        · cases hread
        · rename_i e he
          have hmem : (p.name, Expr.read text) ∈ formals.readDefaults :=
            (formals.forall_readDefaults (· ∈ formals.readDefaults)).mp (fun _ h => h) p hm text ht
          exact ⟨e, he, hq (p.name, e) (List.mem_filterMap.mpr ⟨_, hmem, by rw [he]⟩)⟩
      · cases ht
  · rintro ⟨body, hb, hp, hd⟩
    have hdefaults : ∀ x ∈ formals.readDefaults, ∃ e, x.2 = .ok e ∧ Q e :=
      (formals.forall_readDefaults _).mpr hd
    unfold read
    rw [hb]
    dsimp only
    rw [if_pos]
    · refine ⟨_, rfl, fun e he => ?_, hp⟩
      obtain ⟨x, hx, he⟩ := List.mem_filterMap.mp he
      obtain ⟨e', hr, hq⟩ := hdefaults x hx
      rw [hr] at he
      cases he
      exact hq
    · rw [List.isEmpty_iff, List.filterMap_eq_nil_iff]
      intro x hx
      obtain ⟨e, hr, -⟩ := hdefaults x hx
      rw [hr]

theorem problems_eq_nil (d : Directory) (t : Template) :
    t.problems d = [] ↔ (∀ e ∈ t.defaults, Spot.Formed d t.formals ⟨[], .expr false e.2⟩) ∧
      ∀ e ∈ t.body, Spot.Formed d t.formals ⟨[], .element e⟩ := by
  simp only [problems, List.append_eq_nil_iff, List.flatMap_eq_nil_iff, List.map_eq_nil_iff,
    Element.findingsAll_eq_nil, Spot.formed_iff_findings]
  rfl

end Template

/-- A template compiles if its body and all defaults can be read and everything in them obeys its rule. -/
theorem Program.compiles_iff (d : Directory) (name : String) (formals : Formals) (source : String) :
    (∃ p, compile d name formals source = .ok p) ↔
      ∃ body, Element.readAll source = .ok body ∧
        (∀ e ∈ body, ∀ s, Spot.Contains ⟨[], .element e⟩ s → s.Obeys d formals) ∧
        ∀ p ∈ formals.parameters, ∀ text, p.default = some text →
          ∃ e, Expr.read text = .ok e ∧ ∀ s, Spot.Contains ⟨[], .expr false e⟩ s → s.Obeys d formals := by
  have hread : (∃ p, compile d name formals source = .ok p) ↔
      ∃ t, Template.read name formals source = .ok t ∧
        (∀ e ∈ t.defaults, Spot.Formed d formals ⟨[], .expr false e.2⟩) ∧
          ∀ e ∈ t.body, Spot.Formed d formals ⟨[], .element e⟩ := by
    constructor
    · rintro ⟨p, hp⟩
      obtain ⟨t, ht, hn, -, rfl, rfl, rfl⟩ := of_compile hp
      have hf := (Template.of_read ht).2.1
      exact ⟨t, ht, hf ▸ (t.problems_eq_nil d).mp hn⟩
    · rintro ⟨t, ht, h⟩
      have hf := (Template.of_read ht).2.1
      subst hf
      rw [compile_read ht, (t.problems_eq_nil d).mpr h]
      exact ⟨_, rfl⟩
  exact hread.trans (Template.read_ok_iff (P := fun body => ∀ e ∈ body, Spot.Formed d formals ⟨[], .element e⟩)
    (Q := fun e => Spot.Formed d formals ⟨[], .expr false e⟩))

end Stencil
