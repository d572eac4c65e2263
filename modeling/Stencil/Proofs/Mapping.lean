import Stencil.Proofs.Appending
import Stencil.Proofs.Aside
/-! Maps. The elements of a value go through templates that take turns, and the texts of the instances that
come out are written with a separator between them. -/

namespace Stencil

open Rendering

/-! ## Elements -/

/-- A value yields the elements of a sequence, the keys of a map, nothing if it is null, and else itself. -/
inductive Value.Yields : Value → List Value → Prop where
  | null : Yields .null []
  | sequence (vs : List Value) : Yields (.sequence vs) vs
  | map (entries : List (String × Value)) : Yields (.map entries) ((Dict.keys entries).map .text)
  | single {v : Value} (present : v.isNull = false) (one : v.isMultiple = false) : Yields v [v]

theorem Value.Yields.elements_eq {v : Value} {xs : List Value} (h : v.Yields xs) : v.elements = xs := by
  cases h with
  | null | sequence | map => rfl
  | single present one =>
    cases v with
    | null => cases present
    | sequence | map => cases one
    | bool | int | float | text | object | template => rfl

theorem Value.eq_null_of_isNull {v : Value} (h : v.isNull = true) : v = .null := by
  cases v with
  | null => rfl
  | _ => cases h

/-- Values come out for elements, each related to its element and to the number of elements before it. Nulls
stay in their places and do not count. -/
inductive Counted (R : Nat → Value → Value → Prop) : Nat → List Value → List Value → Prop where
  | nil (k : Nat) : Counted R k [] []
  | null {k : Nat} {xs ys : List Value} (rest : Counted R k xs ys) : Counted R k (.null :: xs) (.null :: ys)
  | element {k : Nat} {x y : Value} {xs ys : List Value} (hx : x.isNull = false) (hy : y.isNull = false)
      (related : R k x y) (rest : Counted R (k + 1) xs ys) : Counted R k (x :: xs) (y :: ys)

namespace Counted

variable {R S : Nat → Value → Value → Prop} {k : Nat} {xs ys zs : List Value}

theorem refl (h : ∀ k x, R k x x) (k : Nat) (xs : List Value) : Counted R k xs xs := by
  induction xs generalizing k with
  | nil => exact .nil k
  | cons x xs ih =>
    cases hx : x.isNull with
    | true => exact Value.eq_null_of_isNull hx ▸ .null (ih k)
    | false => exact .element hx hx (h k x) (ih (k + 1))

theorem comp (h : Counted R k xs ys) (h' : Counted S k ys zs) :
    Counted (fun k x z => ∃ y, R k x y ∧ S k y z) k xs zs := by
  induction h generalizing zs with
  | nil =>
    cases h'
    exact .nil _
  | null _ ih =>
    cases h' with
    | null h' => exact .null (ih h')
    | element hy => cases hy
  | element hx hy hr _ ih =>
    cases h' with
    | null => cases hy
    | element _ hz hs h' => exact .element hx hz ⟨_, hr, hs⟩ (ih h')

theorem mono (h : Counted R k xs ys) (hRS : ∀ k x y, R k x y → S k x y) : Counted S k xs ys := by
  induction h with
  | nil => exact .nil _
  | null _ ih => exact .null ih
  | element hx hy hr _ ih => exact .element hx hy (hRS _ _ _ hr) ih

end Counted

/-! ## Mapped templates -/

/-- The parameter that receives an element: `it` if all names are accepted, and else the first one. -/
inductive Formals.Receives : Formals → String → Prop where
  | element : Receives .any Formals.element
  | first (p : Parameter) (ps : List Parameter) : Receives (.declared (p :: ps)) p.name

theorem Formals.Receives.receiver?_eq {f : Formals} {p : String} (h : f.Receives p) : f.receiver? = some p := by
  cases h <;> rfl

namespace Instance

/-- An instance of a template that receives elements, by another name than those of positions. -/
def Mappable (t : Instance) : Prop := ∃ p, t.program.formals.Receives p ∧ p ∉ Formals.implicit

/-- An instance is as `t` but for an element, which its parameter has received, and the element's position. -/
structure BoundTo (t : Instance) (x : Value) (k : Nat) (b : Instance) : Prop where
  group : b.group = t.group
  native : b.native = t.native
  program : b.program = t.program
  enclosing : b.enclosing = t.enclosing
  received : ∃ p, t.program.formals.Receives p ∧ Dict.find? b.attributes p = some x ∧
    ∀ name ∉ p :: Formals.implicit, Dict.find? b.attributes name = Dict.find? t.attributes name
  position : Dict.find? b.attributes Formals.position = some (.ofNat (k + 1))
  positionFromZero : Dict.find? b.attributes Formals.positionFromZero = some (.ofNat k)

end Instance

/-- A value comes out for an element, which `k` elements are in front of, when it goes through templates one after
another. Each time it is the turn of one of several templates. -/
inductive Through (k : Nat) : List (List Instance) → Value → Value → Prop where
  | nil (v : Value) : Through k [] v v
  | cons {ts : List Instance} {tss : List (List Instance)} {t b : Instance} {x y : Value}
      (turn : ts[k % ts.length]? = some t) (bound : t.BoundTo x k b) (rest : Through k tss (.template b) y) :
      Through k (ts :: tss) x y

theorem Through.step {k : Nat} {ts : List Instance} {tss : List (List Instance)} {x y z : Value}
    (h : Through k [ts] x y) (h' : Through k tss y z) : Through k (ts :: tss) x z := by
  cases h with
  | cons turn bound rest =>
    cases rest
    exact .cons turn bound h'

theorem Through.template {k : Nat} {tss : List (List Instance)} {x y : Value} (h : Through k tss x y) (hne : tss ≠ []) :
    ∃ b, y = .template b := by
  induction h with
  | nil => exact absurd rfl hne
  | @cons _ tss _ b _ _ _ _ rest ih =>
    cases tss with
    | nil =>
      cases rest
      exact ⟨b, rfl⟩
    | cons => exact ih nofun

section

variable (settings : Settings) (env : Env) {t : Instance} {ts : List Instance}

theorem bindElement_mappable (h : t.Mappable) (x : Value) (k : Nat) :
    ∃ b, bindElement settings env t x k = pure (.template b) ∧ t.BoundTo x k b := by
  obtain ⟨p, hp, hi⟩ := h
  have hpos : p ≠ Formals.position := fun h => hi (h ▸ List.mem_cons_self)
  have hzero : p ≠ Formals.positionFromZero := fun h => hi (h ▸ List.mem_cons_of_mem _ List.mem_cons_self)
  have hne : Formals.position ≠ Formals.positionFromZero := by decide
  refine ⟨((t.bind p x).bind Formals.position (.ofNat (k + 1))).bind Formals.positionFromZero (.ofNat k),
    by rw [bindElement, hp.receiver?_eq], rfl, rfl, rfl, rfl, ⟨p, hp, ?_, fun name hn => ?_⟩, ?_, ?_⟩
  · exact (Dict.find?_insert_of_ne _ _ hzero).trans <|
      (Dict.find?_insert_of_ne _ _ hpos).trans (Dict.find?_insert_self _ _ _)
  · simp only [Formals.implicit, List.mem_cons, List.not_mem_nil, or_false, not_or] at hn
    exact (Dict.find?_insert_of_ne _ _ hn.2.2).trans <|
      (Dict.find?_insert_of_ne _ _ hn.2.1).trans (Dict.find?_insert_of_ne _ _ hn.1)
  · exact (Dict.find?_insert_of_ne _ _ hne).trans (Dict.find?_insert_self _ _ _)
  · exact Dict.find?_insert_self _ _ _

variable (ht : ts ≠ []) (h : ∀ t ∈ ts, t.Mappable)
include ht h

theorem mapElement_mappable (x : Value) (k : Nat) :
    ∃ b, mapElement settings env (ts.map some) k x = pure (.template b) ∧ Through k [ts] x (.template b) := by
  have hk : k % ts.length < ts.length := Nat.mod_lt _ (List.length_pos_iff.mpr ht)
  obtain ⟨b, hb, hbound⟩ := bindElement_mappable settings env (h _ (List.getElem_mem hk)) x k
  refine ⟨b, ?_, .cons (List.getElem?_eq_getElem hk) hbound (.nil _)⟩
  rw [mapElement, List.length_map, List.getElem?_map, List.getElem?_eq_getElem hk]
  exact hb

theorem mapElements_mappable (k : Nat) (xs : List Value) : ∃ ys,
    mapElements settings env (ts.map some) k xs = pure ys ∧ Counted (fun k => Through k [ts]) k xs ys := by
  induction xs generalizing k with
  | nil => exact ⟨[], rfl, .nil k⟩
  | cons x xs ih =>
    rw [mapElements]
    cases hx : x.isNull with
    | true =>
      obtain rfl := Value.eq_null_of_isNull hx
      obtain ⟨ys, hys, hc⟩ := ih k
      exact ⟨.null :: ys, by rw [if_pos rfl, hys, pure_bind], .null hc⟩
    | false =>
      obtain ⟨b, hb, hx'⟩ := mapElement_mappable settings env ht h x k
      obtain ⟨ys, hys, hc⟩ := ih (k + 1)
      exact ⟨.template b :: ys, by rw [if_neg Bool.false_ne_true, hb, pure_bind, hys, pure_bind], .element hx rfl hx' hc⟩

/-- Mapping templates over a value has no effect. What comes of it can be mapped again. -/
theorem mapValue_mappable {v : Value} {xs : List Value} (hv : v.Yields xs) : ∃ w ys,
    mapValue settings env v (ts.map some) = pure w ∧ w.Yields ys ∧ Counted (fun k => Through k [ts]) 0 xs ys := by
  have hts : (ts.map some).isEmpty = false := List.isEmpty_eq_false_iff.mpr (by rwa [ne_eq, List.map_eq_nil_iff])
  obtain ⟨ys, hys, hc⟩ := mapElements_mappable settings env ht h 0 xs
  rw [mapValue, hts, Bool.or_false, hv.elements_eq, hys]
  cases hv with
  | null => exact ⟨.null, [], rfl, .null, .nil 0⟩
  | sequence | map => exact ⟨.sequence ys, ys, rfl, .sequence ys, hc⟩
  | single present one =>
    rw [present, one]
    cases hc with
    | null => cases present
    | @element _ _ y _ _ _ hy hr hc =>
      cases hc
      have hone : y.isMultiple = false := by
        cases hr with
        | cons _ _ rest =>
          cases rest
          rfl
      exact ⟨y, [y], rfl, .single hy hone, .element present hy hr (.nil _)⟩

end

/-! ## Chains -/

section

variable {α β : Type} (run : Env → Instance → Rendering Unit)

/-- Where instances are run as described, an attempt gives a value and leaves another state. -/
def Gives (x : Attempt α) (m : Machine) (a : α) (k : Machine) : Prop := handle run x.run m = .done (some a) k

variable {run} {m j k : Machine}

namespace Gives

theorem pure (a : α) (m : Machine) : Gives run (pure a) m a m := rfl

theorem bind {x : Attempt α} {f : α → Attempt β} {a : α} {b : β} (h : Gives run x m a j) (hf : Gives run (f a) j b k) :
    Gives run (x >>= f) m b k :=
  (handle_bind_of_done h).trans hf

theorem lift {x : Rendering α} {a : α} (h : handle run x m = .done a k) : Gives run (liftM x) m a k :=
  handle_bind_of_done h

theorem sink_eq {x : Attempt α} {a : α} (h : Gives run x m a k) (hx : Attempt.Aside x) : k.sink = m.sink :=
  hx run m (some a) k h

end Gives

variable (r : Reading) (settings : Settings) (env : Env) (o : Origin)

/-- A target that is mapped through templates several times. -/
def Expr.mapThrough : Expr → List (List Expr × Span) → Expr
  | target, [] => target
  | target, (templates, s) :: rest => mapThrough (.map target templates s) rest

variable (run)

/-- The templates of maps are evaluated to instances, one map after another. -/
inductive Stages : Nat → List (List Expr × Span) → Machine → List (List Instance) → Machine → Prop where
  | nil (before : Nat) (m : Machine) : Stages before [] m [] m
  | cons {before : Nat} {templates : List Expr} {s : Span} {rest : List (List Expr × Span)} {m j k : Machine}
      {ts : List Instance} {tss : List (List Instance)}
      (first : Gives run (Expr.evalAll r settings env o before templates) m (ts.map .template) j)
      (others : Stages (before + Expr.startedAll templates) rest j tss k) :
      Stages before ((templates, s) :: rest) m (ts :: tss) k

variable {run r settings env o} {before : Nat} {stages : List (List Expr × Span)} {tss : List (List Instance)}

theorem Stages.sink_eq (h : Stages run r settings env o before stages m tss k) : k.sink = m.sink := by
  induction h with
  | nil => rfl
  | cons first _ ih => exact ih.trans (first.sink_eq (Expr.evalAll_aside _ _))

theorem Stages.ne_nil (h : Stages run r settings env o before stages m tss k) (hne : stages ≠ []) : tss ≠ [] := by
  cases h with
  | nil => exact absurd rfl hne
  | cons => exact nofun

/-- A chain of maps gives what comes of the elements on their way through all of them. -/
theorem mapThrough_gives {target : Expr} {v : Value} {xs : List Value}
    (hv : Gives run (target.eval r settings env o before) m v j) (hy : v.Yields xs)
    (hs : Stages run r settings env o (before + target.started) stages j tss k)
    (hm : ∀ ts ∈ tss, ts ≠ [] ∧ ∀ t ∈ ts, t.Mappable) :
    ∃ w ys, Gives run ((target.mapThrough stages).eval r settings env o before) m w k ∧ w.Yields ys ∧
      Counted (fun k => Through k tss) 0 xs ys := by
  induction stages generalizing target v xs j tss with
  | nil =>
    cases hs
    exact ⟨v, xs, hv, hy, .refl (fun _ => .nil) 0 xs⟩
  | cons stage stages ih =>
    cases hs with
    | @cons _ templates s _ _ i _ ts tss first others =>
      obtain ⟨hts, hm⟩ := List.forall_mem_cons.mp hm
      obtain ⟨w, ys, hw, hyw, hc⟩ := mapValue_mappable settings (env.atPlace (o.place s)) hts.1 hts.2 hy
      have htemplates : (ts.map Value.template).map Value.template? = ts.map some := by
        rw [List.map_map]
        rfl
      have hmap : Gives run ((Expr.map target templates s).eval r settings env o before) m w i := by
        refine hv.bind (first.bind ?_)
        rw [htemplates, hw]
        rfl
      obtain ⟨z, zs, hz, hyz, hc'⟩ := ih hmap hyw (Nat.add_assoc _ _ _ ▸ others) hm
      exact ⟨z, zs, hz, hyz, (hc.comp hc').mono fun _ _ _ ⟨_, h, h'⟩ => h.step h'⟩

end

/-! ## Texts -/

/-- Texts behind what was written before. There is a separator between them, and in front of them if there were
others before. -/
def joinedBehind (separator : String) (seen : Bool) (before : String) (texts : List String) : String :=
  if seen then separator.intercalate (before :: texts) else before ++ separator.intercalate texts

theorem joinedBehind_nil (separator : String) (seen : Bool) (before : String) :
    joinedBehind separator seen before [] = before := by
  cases seen <;> simp [joinedBehind]

theorem joinedBehind_cons (separator : String) (seen : Bool) (before text : String) (texts : List String) :
    joinedBehind separator seen before (text :: texts) =
      joinedBehind separator true ((if seen then before ++ separator else before) ++ text) texts := by
  cases seen <;> simp [joinedBehind, String.intercalate_cons_append, String.intercalate_cons_cons]

section

variable {run : Env → Instance → Rendering Unit} (settings : Settings) (env : Env) {m m' : Machine}

theorem writeText_free (hs : m.sink.Free) (text : String) : ∃ k, writeText settings env text m = .done () k ∧
    k.Alongside m ∧ k.sink.Free ∧ k.sink.text = m.sink.text ++ text := by
  rw [writeText_apply, hs.failed, Bool.false_or]
  by_cases ht : text = ""
  · subst ht
    exact ⟨m, rfl, .refl m, hs, String.append_empty.symm⟩
  · rw [if_neg (by simpa using ht), hs.accept]
    refine ⟨_, rfl, (Machine.Alongside.refl m).withSinks _ m.sink _ m.cursor, hs.add ht, ?_⟩
    simp [Sink.text, Sink.add, String.join_append]

theorem writeSeparator_free (hs : m.sink.Free) (separator : String) (seen : Bool) :
    ∃ k, writeSeparator settings env ⟨some separator, none, none⟩ seen m = .done () k ∧ k.Alongside m ∧ k.sink.Free ∧
      k.sink.text = if seen then m.sink.text ++ separator else m.sink.text := by
  cases seen with
  | true => exact writeText_free settings env hs separator
  | false => exact ⟨m, rfl, .refl m, hs, rfl⟩

variable {settings env} (hrun : HistoryFree run)
include hrun

/-- Writing items writes what the instances among them give, with the separator between them. -/
theorem HistoryFree.writeItems (separator : String) (seen : Bool) {ys : List Value} {bodies : List Instance}
    (hb : ys.filter (!·.isNull) = bodies.map .template) (h : m.Alongside m') (hs : m.sink.Free) :
    ∃ k k' texts, handle run (writeItems settings env ⟨some separator, none, none⟩ seen ys) m = .done () k ∧
      handle run (bodies.mapM fun b => capture (call env b)) m' = .done texts k' ∧ k.Alongside k' ∧
      k.sink.text = joinedBehind separator seen m.sink.text texts := by
  induction ys generalizing seen bodies m m' with
  | nil =>
    obtain rfl := List.map_eq_nil_iff.mp hb.symm
    exact ⟨m, m', [], rfl, rfl, h, (joinedBehind_nil _ _ _).symm⟩
  | cons y ys ih =>
    cases hy : y.isNull with
    | true =>
      rw [List.filter_cons_of_neg (by rw [hy]; nofun)] at hb
      rw [Rendering.writeItems, hy]
      exact ih seen hb h hs
    | false =>
      rw [List.filter_cons_of_pos (by rw [hy]; rfl)] at hb
      obtain ⟨b, bodies, rfl, rfl, hrest⟩ := List.map_eq_cons_iff.mp hb.symm
      obtain ⟨i, hi, hi', hfree, htext⟩ := writeSeparator_free settings env hs separator seen
      obtain ⟨j, j', text, hj, hj', hjj, hfree, htext'⟩ := hrun.captured env b (hi'.trans h) hfree
      obtain ⟨k, k', texts, hk, hk', hkk, htexts⟩ := ih true hrest.symm hjj hfree
      refine ⟨k, k', text :: texts, ?_, ?_, hkk, ?_⟩
      · rw [Rendering.writeItems]
        have hsep : handle run (writeSeparator settings env ⟨some separator, none, none⟩ seen) m = .done () i := by
          rw [handle, hi]
          rfl
        exact (handle_bind_of_done hsep).trans ((handle_bind_of_done hj).trans hk)
      · rw [List.mapM_cons]
        exact (handle_bind_of_done hj').trans (handle_bind_of_done hk')
      · rw [joinedBehind_cons, htexts, htext', htext]

theorem HistoryFree.writeValue (separator : String) {w : Value} {ys : List Value} {bodies : List Instance}
    (hy : w.Yields ys) (hb : ys.filter (!·.isNull) = bodies.map .template) (h : m.Alongside m') (hs : m.sink.Free) :
    ∃ k k' texts, handle run (writeValue settings env ⟨some separator, none, none⟩ w) m = .done () k ∧
      handle run (bodies.mapM fun b => capture (call env b)) m' = .done texts k' ∧ k.Alongside k' ∧
      k.sink.text = m.sink.text ++ separator.intercalate texts := by
  cases hy with
  | null =>
    obtain rfl := List.map_eq_nil_iff.mp hb.symm
    exact ⟨m, m', [], rfl, rfl, h, by rw [String.intercalate_nil, String.append_empty]⟩
  | sequence vs => exact hrun.writeItems separator false hb h hs
  | map entries =>
    cases entries with
    | nil =>
      obtain rfl := List.map_eq_nil_iff.mp hb.symm
      exact ⟨m, m', [], rfl, rfl, h, by rw [String.intercalate_nil, String.append_empty]⟩
    -- no template is a key
    | cons => cases bodies <;> cases hb
  | single present one =>
    rw [List.filter_cons_of_pos (by rw [present]; rfl)] at hb
    obtain ⟨b, bodies, rfl, rfl, hrest⟩ := List.map_eq_cons_iff.mp hb.symm
    obtain rfl := List.map_eq_nil_iff.mp hrest
    obtain ⟨k, k', text, hk, hk', hkk, hfree, htext⟩ := hrun.captured env b h hs
    refine ⟨k, k', [text], hk, ?_, hkk, by rw [String.intercalate_singleton, htext]⟩
    rw [List.mapM_cons]
    exact handle_bind_of_done hk'

end

/-! ## Tags -/

section

variable {r : Reading} {settings : Settings} {env : Env} {o : Origin} {before n : Nat}
  {run : Env → Instance → Rendering Unit} {m m₁ m₂ m₃ m₄ k k' : Machine} {tss : List (List Instance)}

/-- Writing an expression writes its value. Beyond that, only the frames hear of it. -/
theorem writeExpression_done {options : WriteOptions} {w : Value}
    (h : handle run (writeValue settings env options w) m = .done () k) :
    ∃ l, handle run (writeExpression settings env options w) m = .done () l ∧ l.sink = k.sink ∧
      l.workspace = k.workspace := by
  unfold writeExpression
  exact ⟨_, (handle_bind_of_done rfl).trans ((handle_bind_of_done h).trans (handle_bind_of_done rfl)), rfl, rfl⟩

theorem renderOptions_separator {x : Value} {text : String}
    (h : handle run (renderText settings env x) m = .done text k) :
    handle run (renderOptions settings env (some x) none none) m = .done ⟨some text, none, none⟩ k := by
  have hmap : handle run (some <$> renderText settings env x) m = .done (some text) k := by
    rw [← bind_pure_comp]
    exact handle_bind_of_done h
  exact handle_bind_of_done hmap

/-- What comes out for elements that go through templates are instances, one for each that is no null. -/
theorem Counted.bodies {i : Nat} {xs ys : List Value} (h : Counted (fun k => Through k tss) i xs ys) (hne : tss ≠ []) :
    ∃ bodies : List Instance, ys.filter (!·.isNull) = bodies.map .template ∧ ∀ j,
      Option.Rel (fun x b => Through (i + j) tss x (.template b)) (xs.filter (!·.isNull))[j]? bodies[j]? := by
  induction h with
  | nil => exact ⟨[], rfl, fun _ => .none⟩
  | null _ ih => exact ih
  | @element i _ _ _ _ hx _ hr _ ih =>
    obtain ⟨b, rfl⟩ := hr.template hne
    obtain ⟨bodies, hb, hrel⟩ := ih
    rw [List.filter_cons_of_pos rfl, List.filter_cons_of_pos (by rw [hx]; rfl), hb]
    refine ⟨b :: bodies, rfl, fun j => ?_⟩
    cases j with
    | zero => exact .some hr
    | succ j => exact Nat.add_right_comm i 1 j ▸ hrel j

theorem separator_gives {separator : Expr} {x : Value}
    (h : Gives run (separator.eval r settings env o before) m x k) (s : Span) :
    Gives run (TagOption.eval r settings env o before "separator" [⟨"separator", separator, s⟩]) m (some x) k := by
  rw [TagOption.eval, if_pos (beq_self_eq_true _)]
  exact h.bind (.pure _ _)

theorem noOption_gives {wanted : String} (hw : "separator" ≠ wanted) (separator : Expr) (s : Span) (m : Machine) :
    Gives run (TagOption.eval r settings env o before wanted [⟨"separator", separator, s⟩]) m none m := by
  rw [TagOption.eval, if_neg (by simpa using hw)]
  exact .pure _ _

/-- A tag with maps and a separator writes the texts of the instances that come of its target, with the
separator between them. There is one for each element that is no null, in order, which has gone through each
map with the same position. The instances may run on their trees or on their code. -/
theorem maps_joined
    (hrun : run = (fun env => evaluate r settings n (some env)) ∨ run = fun env => invoke settings n (some env))
    {target separator : Expr} {stages : List (List Expr × Span)} (s s' : Span) {v x : Value} {xs : List Value}
    {text : String} (hv : Gives run (target.eval r settings env o before) m v m₁) (hy : v.Yields xs)
    (hts : Stages run r settings env o (before + target.started) stages m₁ tss m₂) (hne : stages ≠ [])
    (hm : ∀ ts ∈ tss, ts ≠ [] ∧ ∀ t ∈ ts, t.Mappable)
    (hx : Gives run (separator.eval r settings env o (before + (target.mapThrough stages).started)) m₂ x m₃)
    (htext : handle run (renderText settings (env.atPlace (o.place s)) x) m₃ = .done text m₄) (hs : m.sink.Free) :
    ∃ (bodies : List Instance) (texts : List String) (k k' : Machine),
      (∀ j, Option.Rel (fun x b => Through j tss x (.template b)) (xs.filter (!·.isNull))[j]? bodies[j]?) ∧
      handle run (bodies.mapM fun b => capture (call (env.atPlace (o.place s)) b)) m₄ = .done texts k' ∧
      Gives run ((Element.tag (target.mapThrough stages) [⟨"separator", separator, s'⟩] s).eval r settings env o before)
        m () k ∧
      k.sink.text = m.sink.text ++ text.intercalate texts ∧ k.workspace = k'.workspace := by
  have hfree : HistoryFree run := by
    obtain rfl | rfl := hrun
    · exact fun _ _ _ env bound h => (appended settings).evaluate r n (some env) bound h
    · exact fun _ _ _ env bound h => invoke_appended n (some env) bound h
  obtain ⟨w, ys, hw, hyw, hc⟩ := mapThrough_gives hv hy hts hm
  obtain ⟨bodies, hb, hrel⟩ := hc.bodies (hts.ne_nil hne)
  -- the operands leave the sink as it was
  have hsink : m₄.sink = m.sink := (Aside.renderText _ _ _ run _ _ _ htext).trans <|
    (hx.sink_eq (Expr.eval_aside _ _)).trans (hw.sink_eq (Expr.eval_aside _ _))
  obtain ⟨k, k', texts, hk, hk', hkk, htexts⟩ := hfree.writeValue text hyw hb (.refl m₄) (hsink ▸ hs)
  obtain ⟨l, hl, hlk, hwk⟩ := writeExpression_done hk
  refine ⟨bodies, texts, l, k', fun j => by simpa using hrel j, hk', ?_, ?_, hwk.trans hkk.workspace⟩
  · exact hw.bind <| (separator_gives hx s').bind <| (noOption_gives (by decide) _ _ _).bind <|
      (noOption_gives (by decide) _ _ _).bind <| .bind (.lift (renderOptions_separator htext)) (.lift hl)
  · rw [hlk, htexts, hsink]

theorem maps_joined_letters :
    let r := Classical.choice Reading.nonempty
    let settings : Settings := ⟨100, .empty "main", .log⟩
    let o : Origin := ⟨"<xs:{x | <x>}; separator=\", \">", false⟩
    let letter : List Element := [.tag (.attribute "x" ⟨10, 1⟩) [] ⟨9, 3⟩]
    let target : Expr := .attribute "xs" ⟨1, 2⟩
    let stages : List (List Expr × Span) := [([.anonymous (some "x") letter ⟨4, 9⟩], ⟨1, 12⟩)]
    let tag : Element := .tag (target.mapThrough stages) [⟨"separator", .literal ", " ⟨25, 4⟩, ⟨15, 9⟩⟩] ⟨0, 30⟩
    let program := r.program ⟨"letters", .ofNames ["xs"], o, [], [tag], false, 0⟩
    let bound := (Instance.ofProgram settings.group settings.group program none).bind "xs"
      (.sequence [.text "a", .null, .text "b"])
    let start := (⟨.empty false, [], .output none, 0, .empty⟩ : Machine).enter none bound
    let t := enclosed settings start.1 (r.program (.ofAnonymous o 0 (some "x") letter))
    let run env := evaluate r settings 100 (some env)
    ∃ (bodies : List Instance) (texts : List String) (k k' : Machine),
      (∀ j, Option.Rel (fun x b => Through j [[t]] x (.template b)) [Value.text "a", .text "b"][j]? bodies[j]?) ∧
      handle run (bodies.mapM fun b => capture (call (start.1.atPlace (some ⟨0, 30⟩)) b)) start.2 = .done texts k' ∧
      Gives run (tag.eval r settings start.1 o 0) start.2 () k ∧
      k.sink.text = start.2.sink.text ++ ", ".intercalate texts ∧ k.workspace = k'.workspace := by
  intro r settings o letter target stages tag program bound start t run
  have hproper : (Template.ofAnonymous o 0 (some "x") letter).Proper := by
    refine ⟨nofun, fun s => s = ⟨9, 3⟩ ∨ s = ⟨10, 1⟩, ?_, ⟨⟨⟨.inr rfl, rfl⟩, trivial, .inl rfl⟩, trivial⟩⟩
    rintro _ (rfl | rfl) _ ⟨⟩
    · exact ⟨"<xs:\x7bx | ".toList, "<x>".toList, "\x7d; separator=\", \">".toList, by decide⟩
    · exact ⟨"<xs:\x7bx | <".toList, "x".toList, ">\x7d; separator=\", \">".toList, by decide⟩
  have hformals : t.program.formals = .declared [⟨"x", none⟩] := congrArg Code.formals (r.program_code _ hproper)
  have hm : t.Mappable := ⟨"x", hformals ▸ .first ⟨"x", none⟩ [], by decide⟩
  have hv : Gives run (target.eval r settings start.1 o 0) start.2 (.sequence [.text "a", .null, .text "b"])
      start.2 := rfl
  have hts : Stages run r settings start.1 o 0 stages start.2 [[t]] start.2 := .cons rfl (.nil _ _)
  have hx : Gives run (Expr.eval r settings start.1 o 1 (.literal ", " ⟨25, 4⟩)) start.2 (.text ", ") start.2 := rfl
  exact maps_joined (.inl rfl) ⟨0, 30⟩ ⟨15, 9⟩ hv (.sequence _) hts nofun (by simpa using hm) hx rfl ⟨rfl, rfl, nofun⟩

end

end Stencil
