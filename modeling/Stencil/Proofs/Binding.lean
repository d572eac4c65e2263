import Stencil.Proofs.Mapping
/-! What a mapped template reads. Its first parameter reads as the element, and what the call passes reads as it was
passed. The positions of the element are bound after both. -/

namespace Stencil

open Rendering

/-! ## Names in a body -/

/-- Wherever and whenever an instance runs, a name reads as a value there. -/
def Instance.Reads (b : Instance) (name : String) (x : Value) : Prop :=
  ∀ env m, env.here.bound = b → readAttribute env name m = .done x m

/-- What is bound to an instance is read in it, whatever it has for defaults and wherever it was created. -/
theorem Instance.reads_of_find? {b : Instance} {name : String} {x : Value} (h : Dict.find? b.attributes name = some x) :
    b.Reads name x := by
  rintro env m rfl
  have hl : lookupFrom m.frames name none env.activations = some x := by
    rw [Env.activations, lookupFrom, Option.all_none, if_pos rfl, h]
  exact congrArg (fun o : Option Value => Course.done (o.getD .null) m) hl

/-! ## What a call passes -/

namespace Instance

/-- Binds values to names in turn. -/
def bindAll (b : Instance) (passed : List (String × Value)) : Instance := passed.foldl (fun i e => i.bind e.1 e.2) b

theorem bindAll_program (b : Instance) (passed : List (String × Value)) : (b.bindAll passed).program = b.program := by
  induction passed generalizing b with
  | nil => rfl
  | cons e passed ih => exact ih (b.bind e.1 e.2)

/-- The last value that is bound to a name counts. -/
theorem find?_bindAll (b : Instance) (passed : List (String × Value)) (name : String) :
    Dict.find? (b.bindAll passed).attributes name = (passed.reverse.lookup name).or (Dict.find? b.attributes name) := by
  induction passed generalizing b with
  | nil => rfl
  | cons e passed ih =>
    obtain ⟨key, x⟩ := e
    have hlast : Dict.find? (b.bind key x).attributes name =
        ([(key, x)].lookup name).or (Dict.find? b.attributes name) := by
      by_cases h : name = key
      · subst h
        rw [Instance.bind, Dict.find?_insert_self, List.lookup_cons, beq_self_eq_true]
        rfl
      · rw [Instance.bind, Dict.find?_insert_of_ne _ _ h, List.lookup_cons, beq_false_of_ne h]
        rfl
    rw [List.reverse_cons, List.lookup_append, Option.or_assoc, ← hlast]
    exact ih (b.bind key x)

end Instance

/-- The names that are bound to what a call passes, with their values. -/
def Passed.pairs (f : Formals) : Passed → List (String × Value)
  | .positional values => (f.parameters.map Parameter.name).zip values
  | .named values => values.filter fun e => f.accepts e.1

section

variable {α β : Type} {run : Env → Instance → Rendering Unit} {m k : Machine}

theorem Gives.of_bind {x : Attempt α} {f : α → Attempt β} {b : β} (h : Gives run (x >>= f) m b k) :
    ∃ a j, Gives run x m a j ∧ Gives run (f a) j b k := by
  obtain ⟨a, j, hx, hf⟩ := Course.done_of_bind ((Course.handle_bind run (x.run m) _).symm.trans h)
  cases a with
  | none => cases hf
  | some a => exact ⟨a, j, hx, hf⟩

theorem Gives.of_lift {x : Rendering α} {a : α} (h : Gives run (liftM x) m a k) : handle run x m = .done a k := by
  obtain ⟨_, _, hx, hf⟩ := Course.done_of_bind ((Course.handle_bind run (x m) _).symm.trans h)
  cases hf
  exact hx

variable {settings : Settings} {env : Env} {template : String} {bound t : Instance}

theorem bindNamed_done {passed : List (String × Value)}
    (h : handle run (bindNamed settings env template bound passed) m = .done t k) :
    t = bound.bindAll (passed.filter fun e => bound.program.formals.accepts e.1) := by
  induction passed generalizing bound m with
  | nil =>
    cases h
    rfl
  | cons e passed ih =>
    obtain ⟨name, x⟩ := e
    rw [bindNamed] at h
    cases ha : bound.program.formals.accepts name with
    | true =>
      rw [if_pos ha] at h
      rw [List.filter_cons_of_pos (by exact ha)]
      exact ih h
    | false =>
      rw [if_neg (Bool.eq_false_iff.mp ha), handle_bind_of_done (k := m.report settings env _ _ _) rfl] at h
      rw [List.filter_cons_of_neg (by exact Bool.eq_false_iff.mp ha)]
      exact ih h

/-- Binding the arguments of a call binds their values to the names that the callee has for them. -/
theorem bindArguments_gives {passed : Passed} (h : Gives run (bindArguments settings env template bound passed) m t k) :
    t = bound.bindAll (passed.pairs bound.program.formals) := by
  cases passed with
  | named passed => exact bindNamed_done (Gives.of_lift h)
  | positional values =>
    rw [bindArguments] at h
    split at h
    · obtain ⟨_, _, -, h⟩ := h.of_bind
      obtain ⟨_, _, h, -⟩ := h.of_bind
      cases h
    · cases h
      rw [Instance.bindAll, Passed.pairs, List.zip_map_left, List.foldl_map]
      rfl

/-- A template that is called has what the call passes to it and nothing else. -/
theorem instantiate_gives {callee : Callee} {passed : Passed} (h : Gives run (instantiate settings env callee passed) m t k)
    (name : String) : Dict.find? t.attributes name = (passed.pairs t.program.formals).reverse.lookup name := by
  obtain ⟨resolved, j, -, h⟩ := Gives.of_bind h
  have hfails {x : Rendering Unit} (h : Gives run (liftM x >>= fun _ => (failure : Attempt Instance)) j t k) : False := by
    obtain ⟨_, _, -, h⟩ := h.of_bind
    cases h
  cases resolved with
  | error e => cases e <;> exact (hfails h).elim
  | ok found =>
    obtain rfl := bindArguments_gives h
    rw [Instance.bindAll_program, Instance.find?_bindAll]
    exact Option.or_none

theorem instantiateComputed_gives {computed : String} {passed : Passed}
    (h : Gives run (instantiateComputed settings env computed passed) m t k) (name : String) :
    Dict.find? t.attributes name = (passed.pairs t.program.formals).reverse.lookup name := by
  rw [instantiateComputed] at h
  split at h
  · obtain ⟨_, _, -, h⟩ := h.of_bind
    obtain ⟨_, _, h, -⟩ := h.of_bind
    cases h
  · exact instantiate_gives h name

end

/-! ## Templates that are mapped -/

section

variable (run : Env → Instance → Rendering Unit) (r : Reading) (settings : Settings) (env : Env) (o : Origin)

/-- The expression of a template that is mapped gives an instance, to which it passes values by names. -/
inductive Expr.Makes (before : Nat) : Expr → Machine → List (String × Value) → Instance → Machine → Prop where
  | call {callee : Callee} {as : Arguments} {s : Span} {m j k : Machine} {passed : Passed} {t : Instance}
      (passes : Gives run (as.eval r settings env o before) m passed j)
      (creates : Gives run (instantiate settings (env.atPlace (o.place s)) callee passed) j t k) :
      Makes before (.call callee as s) m (passed.pairs t.program.formals) t k
  | callComputed {name : Expr} {as : Arguments} {s : Span} {m m₁ m₂ j k : Machine} {v : Value} {text : String}
      {passed : Passed} {t : Instance} (computes : Gives run (name.eval r settings env o before) m v m₁)
      (renders : handle run (renderEarly settings (env.atPlace (o.place name.span)) v) m₁ = .done text m₂)
      (passes : Gives run (as.eval r settings env o (before + name.started)) m₂ passed j)
      (creates : Gives run (instantiateComputed settings (env.atPlace (o.place s)) text passed) j t k) :
      Makes before (.callComputed name as s) m (passed.pairs t.program.formals) t k
  | anonymous (parameter : Option String) (body : List Element) (s : Span) (m : Machine) :
      Makes before (.anonymous parameter body s) m []
        (enclosed settings env (r.program (.ofAnonymous o before parameter body))) m

/-- The expressions of templates that are mapped in turn each give an instance. -/
inductive Expr.MakesAll : Nat → List Expr → Machine → List (List (String × Value) × Instance) → Machine → Prop where
  | nil (before : Nat) (m : Machine) : MakesAll before [] m [] m
  | cons {before : Nat} {e : Expr} {es : List Expr} {m j k : Machine} {passed : List (String × Value)} {t : Instance}
      {made : List (List (String × Value) × Instance)} (first : e.Makes run r settings env o before m passed t j)
      (others : MakesAll (before + e.started) es j made k) : MakesAll before (e :: es) m ((passed, t) :: made) k

variable {run r settings env o} {before : Nat} {m k : Machine}

/-- What is passed is bound, and nothing else. -/
theorem Expr.Makes.find?_eq {e : Expr} {passed : List (String × Value)} {t : Instance}
    (h : e.Makes run r settings env o before m passed t k) (name : String) :
    Dict.find? t.attributes name = passed.reverse.lookup name := by
  cases h with
  | call _ creates => exact instantiate_gives creates name
  | callComputed _ _ _ creates => exact instantiateComputed_gives creates name
  | anonymous => rfl

theorem Expr.IsTemplate.makes {e : Expr} (ht : e.IsTemplate) {v : Value}
    (h : Gives run (e.eval r settings env o before) m v k) :
    ∃ passed t, v = .template t ∧ e.Makes run r settings env o before m passed t k := by
  cases e with
  | call callee as s =>
    obtain ⟨passed, j, hpasses, h⟩ := Gives.of_bind h
    obtain ⟨t, i, hcreates, h⟩ := h.of_bind
    cases h
    exact ⟨_, t, rfl, .call hpasses hcreates⟩
  | callComputed name as s =>
    obtain ⟨v, m₁, hcomputes, h⟩ := Gives.of_bind h
    obtain ⟨text, m₂, hrenders, h⟩ := h.of_bind
    obtain ⟨passed, j, hpasses, h⟩ := h.of_bind
    obtain ⟨t, i, hcreates, h⟩ := h.of_bind
    cases h
    exact ⟨_, t, rfl, .callComputed hcomputes (Gives.of_lift hrenders) hpasses hcreates⟩
  | anonymous parameter body s =>
    cases h
    exact ⟨_, _, rfl, .anonymous parameter body s _⟩
  | _ => exact ht.elim

theorem makesAll_of_evalAll {es : List Expr} (ht : ∀ e ∈ es, e.IsTemplate) {vs : List Value}
    (h : Gives run (Expr.evalAll r settings env o before es) m vs k) :
    ∃ made, vs = made.map (fun t => .template t.2) ∧ Expr.MakesAll run r settings env o before es m made k := by
  induction es generalizing before m vs with
  | nil =>
    cases h
    exact ⟨[], rfl, .nil before _⟩
  | cons e es ih =>
    obtain ⟨v, j, hv, h⟩ := Gives.of_bind h
    obtain ⟨vs, i, hvs, h⟩ := h.of_bind
    cases h
    obtain ⟨passed, t, rfl, hfirst⟩ := (ht e List.mem_cons_self).makes hv
    obtain ⟨made, rfl, hothers⟩ := ih (fun e he => ht e (List.mem_cons_of_mem _ he)) hvs
    exact ⟨(passed, t) :: made, rfl, .cons hfirst hothers⟩

/-- All that is passed to the templates that are mapped is bound to them. -/
theorem Expr.MakesAll.find?_eq {es : List Expr} {made : List (List (String × Value) × Instance)}
    (h : Expr.MakesAll run r settings env o before es m made k) :
    ∀ t ∈ made, ∀ name, Dict.find? t.2.attributes name = t.1.reverse.lookup name := by
  induction h with
  | nil => exact List.forall_mem_nil _
  | cons first _ ih => exact List.forall_mem_cons.mpr ⟨first.find?_eq, ih⟩

end

/-! ## Elements -/

/-- An instance as which a template is mapped over an element that `k` others are in front of. -/
def Instance.over (t : Instance) (parameter : String) (x : Value) (k : Nat) : Instance :=
  ((t.bind parameter x).bind Formals.position (.ofNat (k + 1))).bind Formals.positionFromZero (.ofNat k)

/-- What the body of a template reads that is mapped over an element: the element, what was passed to the template,
and how many elements there are in front of it. The names of positions read as such, whatever else goes by them. -/
structure Instance.ReadsElement (b : Instance) (parameter : String) (passed : List (String × Value)) (x : Value)
    (k : Nat) : Prop where
  element : parameter ∉ Formals.implicit → b.Reads parameter x
  passed : ∀ name value, passed.reverse.lookup name = some value → name ≠ parameter → name ∉ Formals.implicit →
    b.Reads name value
  position : b.Reads Formals.position (.ofNat (k + 1))
  positionFromZero : b.Reads Formals.positionFromZero (.ofNat k)

theorem Instance.over_reads {t : Instance} {passed : List (String × Value)}
    (h : ∀ name, Dict.find? t.attributes name = passed.reverse.lookup name) (parameter : String) (x : Value) (k : Nat) :
    (t.over parameter x k).ReadsElement parameter passed x k := by
  have hne : Formals.position ≠ Formals.positionFromZero := by decide
  have hother {name : String} (hn : name ∉ Formals.implicit) :
      Dict.find? (t.over parameter x k).attributes name = Dict.find? (t.bind parameter x).attributes name := by
    simp only [Formals.implicit, List.mem_cons, List.not_mem_nil, or_false, not_or] at hn
    exact (Dict.find?_insert_of_ne _ _ hn.2).trans (Dict.find?_insert_of_ne _ _ hn.1)
  constructor
  · exact fun hp => reads_of_find? ((hother hp).trans (Dict.find?_insert_self _ _ _))
  · intro name value hv hp hn
    exact reads_of_find? ((hother hn).trans ((Dict.find?_insert_of_ne _ _ hp).trans ((h name).trans hv)))
  · exact reads_of_find? ((Dict.find?_insert_of_ne _ _ hne).trans (Dict.find?_insert_self _ _ _))
  · exact reads_of_find? (Dict.find?_insert_self _ _ _)

section

variable (run : Env → Instance → Rendering Unit) (settings : Settings) (env : Env)

theorem mapElement_done (templates : List (Option Instance)) (index : Nat) (x : Value) (m : Machine) :
    ∃ y k, handle run (mapElement settings env templates index x) m = .done y k ∧ ∀ t parameter,
      templates[index % templates.length]? = some (some t) → t.program.formals.receiver? = some parameter →
      y = .template (t.over parameter x index) := by
  rw [mapElement]
  cases ht : templates[index % templates.length]? with
  | none => exact ⟨.null, m, rfl, by rintro _ _ ⟨⟩⟩
  | some o =>
    cases o with
    | none => exact ⟨.null, m, rfl, by rintro _ _ ⟨⟩⟩
    | some t =>
      dsimp only
      rw [bindElement]
      cases hr : t.program.formals.receiver? with
      | none =>
        refine ⟨.null, m.report settings env _ _ _, rfl, ?_⟩
        rintro t' parameter ⟨⟩ hr'
        cases hr.symm.trans hr'
      | some p =>
        refine ⟨.template (t.over p x index), m, rfl, ?_⟩
        rintro t' parameter ⟨⟩ hr'
        cases hr.symm.trans hr'
        rfl

/-- Where the template whose turn it is takes an element, an instance of it over that element comes out. -/
theorem mapElements_done (templates : List (Option Instance)) (index : Nat) (xs : List Value) (m : Machine) :
    ∃ ys k, handle run (mapElements settings env templates index xs) m = .done ys k ∧ ys.length = xs.length ∧
      ∀ i x t parameter position, xs[i]? = some x → x.isNull = false →
        position = index + (xs.take i).countP (fun x => !x.isNull) →
        templates[position % templates.length]? = some (some t) → t.program.formals.receiver? = some parameter →
        ys[i]? = some (.template (t.over parameter x position)) := by
  induction xs generalizing index m with
  | nil => exact ⟨[], m, rfl, rfl, nofun⟩
  | cons x xs ih =>
    rw [mapElements]
    cases hn : x.isNull with
    | true =>
      obtain ⟨ys, k, hys, hlength, hread⟩ := ih index m
      refine ⟨.null :: ys, k, handle_bind_of_done hys, congrArg (· + 1) hlength, ?_⟩
      intro i x' t parameter position hx hn' hp
      cases i with
      | zero =>
        cases hx
        cases hn.symm.trans hn'
      | succ i =>
        refine hread i x' t parameter position hx hn' ?_
        rw [hp, List.take_succ_cons, List.countP_cons_of_neg (by simp [hn])]
    | false =>
      obtain ⟨y, j, hy, hturn⟩ := mapElement_done run settings env templates index x m
      obtain ⟨ys, k, hys, hlength, hread⟩ := ih (index + 1) j
      refine ⟨y :: ys, k, (handle_bind_of_done hy).trans (handle_bind_of_done hys), congrArg (· + 1) hlength, ?_⟩
      intro i x' t parameter position hx hn' hp ht hr
      cases i with
      | zero =>
        cases hx
        obtain rfl : position = index := hp
        exact congrArg some (hturn t parameter ht hr)
      | succ i =>
        refine hread i x' t parameter position hx hn' ?_ ht hr
        rw [hp, List.take_succ_cons, List.countP_cons_of_pos (by simp [hn])]
        omega

theorem mapValue_done (templates : List (Option Instance)) (v : Value) (m : Machine) :
    ∃ w k, handle run (mapValue settings env v templates) m = .done w k ∧ ∀ i x t parameter position,
      v.elements[i]? = some x → x.isNull = false →
      position = (v.elements.take i).countP (fun x => !x.isNull) →
      templates[position % templates.length]? = some (some t) → t.program.formals.receiver? = some parameter →
      w.elements[i]? = some (.template (t.over parameter x position)) := by
  rw [mapValue]
  split
  · next hnone =>
    refine ⟨.null, m, rfl, fun i x t parameter position hx _ _ ht => ?_⟩
    rcases Bool.or_eq_true_iff.mp hnone with hv | he
    · obtain rfl := Value.eq_null_of_isNull hv
      cases hx
    · obtain rfl := List.isEmpty_iff.mp he
      cases ht
  · obtain ⟨ys, k, hys, hlength, hread⟩ := mapElements_done run settings env templates 0 v.elements m
    refine ⟨_, k, handle_bind_of_done hys, fun i x t parameter position hx hn hp ht hr => ?_⟩
    have hy := hread i x t parameter position hx hn (hp.trans (Nat.zero_add _).symm) ht hr
    cases hm : v.isMultiple with
    | true => exact hy
    | false =>
      -- the value is its only element, and so is what comes of it
      have hone : v.elements.length ≤ 1 := by
        cases v with
        | sequence | map => cases hm
        | _ => simp [Value.elements]
      have hlt := (List.getElem?_eq_some_iff.mp hx).1
      obtain rfl : i = 0 := by omega
      obtain ⟨y, rfl⟩ := List.length_eq_one_iff.mp (show ys.length = 1 by omega)
      cases hy
      rfl

end

/-! ## Maps -/

section

variable {run : Env → Instance → Rendering Unit} {r : Reading} {settings : Settings} {env : Env} {o : Origin}
  {before : Nat} {m m₁ m₂ : Machine}

/-- A map whose target and templates give values gives one, too, and in that there is an instance of the template whose
turn it is for each element that is no null. In the body of the instance, the first parameter reads as the element,
and all else that the call passes as it was passed, unless they go by the name of a position. These read as the
positions. -/
theorem bindings_read {target : Expr} {templates : List Expr} (s : Span) (ht : ∀ e ∈ templates, e.IsTemplate)
    {v : Value} {vs : List Value} (hv : Gives run (target.eval r settings env o before) m v m₁)
    (hvs : Gives run (Expr.evalAll r settings env o (before + target.started) templates) m₁ vs m₂) :
    ∃ made w k, Expr.MakesAll run r settings env o (before + target.started) templates m₁ made m₂ ∧
      Gives run ((Expr.map target templates s).eval r settings env o before) m w k ∧
      ∀ i x passed t p ps, v.elements[i]? = some x → x.isNull = false →
        let position := (v.elements.take i).countP fun x => !x.isNull
        made[position % made.length]? = some (passed, t) → t.program.formals = .declared (p :: ps) →
        ∃ b, w.elements[i]? = some (.template b) ∧ b.program = t.program ∧ b.ReadsElement p.name passed x position := by
  obtain ⟨made, rfl, hmade⟩ := makesAll_of_evalAll ht hvs
  have htemplates : (made.map fun t => Value.template t.2).map Value.template? = made.map fun t => some t.2 := by
    rw [List.map_map]
    rfl
  obtain ⟨w, k, hw, hread⟩ := mapValue_done run settings (env.atPlace (o.place s)) (made.map fun t => some t.2) v m₂
  refine ⟨made, w, k, hmade, hv.bind (hvs.bind ?_), ?_⟩
  · rw [htemplates]
    exact .lift hw
  · intro i x passed t p ps hx hn position hturn hf
    have hturn' : (made.map fun t => some t.2)[position % (made.map fun t => some t.2).length]? = some (some t) := by
      rw [List.length_map, List.getElem?_map, hturn]
      rfl
    have hr : t.program.formals.receiver? = some p.name := by
      rw [hf]
      rfl
    exact ⟨_, hread i x t p.name position hx hn rfl hturn' hr, rfl,
      Instance.over_reads (hmade.find?_eq _ (List.mem_of_getElem? hturn)) _ _ _⟩

theorem bindings_read_rows :
    let r := Classical.choice Reading.nonempty
    let row : Template := ⟨"row", .ofNames ["x", "sep"], ⟨"<x><sep>", false⟩, [],
      [.tag (.attribute "x" ⟨1, 1⟩) [] ⟨0, 3⟩, .tag (.attribute "sep" ⟨4, 3⟩) [] ⟨3, 5⟩], false, 0⟩
    ∃ hrow : row.Proper,
      let group : Group := { Group.empty "main" with templates := [("row", ⟨row.formals, "<x><sep>", 0⟩)] }
      let settings : Settings := ⟨100, group, .log⟩
      let o : Origin := ⟨"<xs:row(sep=\"-\"),\x7bx | <x>\x7d>", false⟩
      let target : Expr := .attribute "xs" ⟨1, 2⟩
      let templates : List Expr := [.call ⟨"row", false⟩ (.named [⟨"sep", .literal "-" ⟨12, 3⟩, ⟨8, 3⟩⟩]) ⟨4, 12⟩,
        .anonymous (some "x") [.tag (.attribute "x" ⟨23, 1⟩) [] ⟨22, 3⟩] ⟨17, 9⟩]
      let v : Value := .sequence [.text "a", .null, .text "b"]
      let tag : Element := .tag (.map target templates ⟨1, 25⟩) [] ⟨0, 27⟩
      let bound := (Instance.ofProgram group group
        (r.program ⟨"main", .ofNames ["xs"], o, [], [tag], false, 0⟩) none).bind "xs" v
      let start := (⟨.empty false, [], .output none, 0,
        ⟨#[⟨some (.ready (.ofTemplate row hrow)), 0⟩], #[[]], #[]⟩⟩ : Machine).enter none bound
      let run env := evaluate r settings 100 (some env)
      ∃ made w k, Expr.MakesAll run r settings start.1 o 0 templates start.2 made start.2 ∧
        Gives run ((Expr.map target templates ⟨1, 25⟩).eval r settings start.1 o 0) start.2 w k ∧
        ∀ i x passed t p ps, v.elements[i]? = some x → x.isNull = false →
          let position := (v.elements.take i).countP fun x => !x.isNull
          made[position % made.length]? = some (passed, t) → t.program.formals = .declared (p :: ps) →
          ∃ b, w.elements[i]? = some (.template b) ∧ b.program = t.program ∧
            b.ReadsElement p.name passed x position := by
  intro r row
  have hrow : row.Proper := by
    refine ⟨nofun, fun s => s = ⟨0, 3⟩ ∨ s = ⟨1, 1⟩ ∨ s = ⟨3, 5⟩ ∨ s = ⟨4, 3⟩, ?_, ?_⟩
    · rintro _ (rfl | rfl | rfl | rfl) _ ⟨⟩
      · exact ⟨[], "<x>".toList, "<sep>".toList, by decide⟩
      · exact ⟨"<".toList, "x".toList, "><sep>".toList, by decide⟩
      · exact ⟨"<x>".toList, "<sep>".toList, [], by decide⟩
      · exact ⟨"<x><".toList, "sep".toList, ">".toList, by decide⟩
    · exact ⟨⟨⟨.inr (.inl rfl), rfl⟩, trivial, .inl rfl⟩,
        ⟨⟨.inr (.inr (.inr rfl)), rfl⟩, trivial, .inr (.inr (.inl rfl))⟩, trivial⟩
  refine ⟨hrow, ?_⟩
  intro group settings o target templates v tag bound start run
  have ht : ∀ e ∈ templates, e.IsTemplate := by simp [templates, Expr.IsTemplate]
  have hv : Gives run (target.eval r settings start.1 o 0) start.2 v start.2 := rfl
  have hvs : Gives run (Expr.evalAll r settings start.1 o (0 + target.started) templates) start.2 _ start.2 := rfl
  exact bindings_read ⟨1, 25⟩ ht hv hvs

end

end Stencil
