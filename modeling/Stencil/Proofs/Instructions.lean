import Stencil.Proofs.Simulation
/-! What instructions do: each one does, with operands, what evaluation does with values. -/

namespace Stencil

open Rendering

/-! ## Operands of calls and writes -/

/-- Arguments as they lie on the stack. -/
def Passed.laid : Passed → List Value
  | .positional vs => vs.reverse
  | .named es => (es.flatMap fun e => [.text e.1, e.2]).reverse

/-- Whether arguments are as many as an instruction takes. -/
def Passing.Fits : Passing → Passed → Prop
  | .positional n, .positional vs => n = vs.length
  | .named n, .named es => n = es.length
  | _, _ => False

theorem pairs_eq (es : List (String × Value)) :
    pairs (es.flatMap fun e => [.text e.1, e.2]) = pure es := by
  induction es with
  | nil => rfl
  | cons e es ih =>
    rw [List.flatMap_cons, List.cons_append, List.cons_append, List.nil_append, pairs, textOf, pure_bind, ih,
      pure_bind]

theorem instancesOf_eq {vs : List Value} (h : ∀ v ∈ vs, ∃ i, v = .template i) :
    vs.mapM (fun v => (instanceOf v : Attempt (Option Instance))) = pure (vs.map Value.template?) := by
  induction vs with
  | nil => rfl
  | cons v vs ih =>
    obtain ⟨i, rfl⟩ := h v List.mem_cons_self
    rw [List.mapM_cons, ih fun v hv => h v (List.mem_cons_of_mem _ hv), instanceOf, liftM_pure, pure_bind,
      pure_bind]
    rfl

section

variable {s : Scene} {operands : List Value} {address : Nat} {α β : Type} {y : Attempt β}
  {post : Option α → Option β → Machine → Machine → Prop}

theorem popArguments_left {passing : Passing} {passed : Passed} (hp : passing.Fits passed)
    {f : Passed → Attempt α}
    (h : Coupled codeAccord (At s operands address) (f passed).run y.run post) :
    Coupled codeAccord (At s (passed.laid ++ operands) address)
      ((liftM (popArguments passing) : Attempt Passed) >>= f).run y.run post := by
  cases passing <;> cases passed <;> try exact hp.elim
  case positional.positional n vs =>
    rw [popArguments, liftM_map, bind_map_left]
    exact popMany_left hp h
  case named.named n es =>
    rw [popArguments, liftM_bind, bind_assoc]
    refine popMany_left ?_ ?_
    · rw [show n = es.length from hp, List.length_flatMap]
      simp [Nat.mul_comm]
    · rw [pairs_eq, pure_bind, liftM_pure, pure_bind]
      exact h

/-- The values of options are rendered as they are taken. -/
theorem popOption_both {place : Option Span} (o : Option Value) {f : Option String → Attempt α}
    {g : Option String → Attempt β}
    (h : ∀ str, Coupled codeAccord (At s operands address) (f str).run (g str).run post) :
    Coupled codeAccord (At s (o.toList ++ operands) address)
      ((liftM (popOption s.settings (s.env.atPlace place) o.isSome) : Attempt _) >>= f).run
      ((liftM (o.mapM (renderText s.settings (s.env.atPlace place))) : Attempt _) >>= g).run post := by
  cases o with
  | none => exact h none
  | some v =>
    have hm : (some v).mapM (renderText s.settings (s.env.atPlace place)) =
        some <$> renderText s.settings (s.env.atPlace place) v := rfl
    rw [hm, liftM_map, bind_map_left, popOption, Option.isSome_some, if_pos rfl, liftM_bind, bind_assoc]
    refine pop_left ?_
    rw [liftM_bind, bind_assoc]
    refine both ((codeTie s place _ _).bond.renderText (.refl (fun _ => rfl) v) ()) fun str _ hstr => ?_
    subst hstr
    rw [liftM_pure, pure_bind]
    exact h (some str)

end

/-! ## Instructions -/

variable {s : Scene} {operands : List Value} {address : Nat} {t : Template}
  (ht : t.code = s.env.program.toCode) {place : Option Span} {y : Attempt Unit} {k : Value → Attempt Unit} {v : Value}

section

include ht

namespace Exec

theorem text {str : String} {k : Unit → Attempt Unit}
    (hl : t.lines[address]? = some ⟨.text str, place⟩) (h : Exec s operands (address + 1) (k ())) :
    Exec s operands address (liftM (writeText s.settings (s.env.atPlace place) str) >>= k) := by
  refine .plain ht (.text str) hl rfl rfl fun n hn => ?_
  rw [step, bind_assoc]
  exact both ((codeTie s place _ _).bond.writeText str ()) fun _ _ _ => next_left h hn

theorem pushText {str : String} (hl : t.lines[address]? = some ⟨.pushText str, place⟩)
    (h : Exec s (.text str :: operands) (address + 1) y) : Exec s operands address y :=
  .plain ht (.pushText str) hl rfl rfl fun _ hn => push_next h hn

theorem pushTruth {b : Bool} (hl : t.lines[address]? = some ⟨.pushTruth b, place⟩)
    (h : Exec s (.bool b :: operands) (address + 1) y) : Exec s operands address y :=
  .plain ht (.pushTruth b) hl rfl rfl fun _ hn => push_next h hn

theorem pushAttribute {name : String}
    (hl : t.lines[address]? = some ⟨.pushAttribute name, place⟩)
    (h : ∀ v, Exec s (v :: operands) (address + 1) (k v)) :
    Exec s operands address (liftM (readAttribute s.env name) >>= k) := by
  refine .plain ht (.pushAttribute name) hl rfl rfl fun n hn => ?_
  rw [step, bind_assoc]
  refine both ((codeTie s place _ _).bond.readAttribute name ()) fun v _ hv => ?_
  cases hv.eq
  exact push_next (h v) hn

theorem property {name : String} (hl : t.lines[address]? = some ⟨.property name, place⟩)
    (h : ∀ v, Exec s (v :: operands) (address + 1) (k v)) :
    Exec s (v :: operands) address
      (liftM (readProperty s.settings (s.env.atPlace place) v name) >>= k) := by
  refine .plain ht (.property name) hl rfl rfl fun n hn => ?_
  rw [step, bind_assoc]
  refine pop_left ?_
  rw [bind_assoc]
  refine both ((codeTie s place _ _).bond.readProperty (.refl (fun _ => rfl) v) name ()) fun v _ hv => ?_
  cases hv.eq
  exact push_next (h v) hn

theorem propertyAt {key : Value} (hl : t.lines[address]? = some ⟨.propertyAt, place⟩)
    (h : ∀ v, Exec s (v :: operands) (address + 1) (k v)) :
    Exec s (key :: v :: operands) address
      (liftM (readPropertyAt s.settings (s.env.atPlace place) v key) >>= k) := by
  refine .plain ht .propertyAt hl rfl rfl fun n hn => ?_
  rw [step, bind_assoc]
  refine pop_left ?_
  rw [bind_assoc]
  refine pop_left ?_
  rw [bind_assoc]
  refine both ((codeTie s place _ _).bond.readPropertyAt (.refl (fun _ => rfl) v) (.refl (fun _ => rfl) key) ())
    fun v _ hv => ?_
  cases hv.eq
  exact push_next (h v) hn

theorem builtin {function : Builtin} (hl : t.lines[address]? = some ⟨.builtin function, place⟩)
    (h : ∀ v, Exec s (v :: operands) (address + 1) (k v)) :
    Exec s (v :: operands) address
      (liftM (applyBuiltin s.settings (s.env.atPlace place) function v) >>= k) := by
  refine .plain ht (.builtin function) hl rfl rfl fun n hn => ?_
  rw [step, bind_assoc]
  refine pop_left ?_
  rw [bind_assoc]
  refine both ((codeTie s place _ _).bond.applyBuiltin function (.refl (fun _ => rfl) v) ()) fun v _ hv => ?_
  cases hv.eq
  exact push_next (h v) hn

theorem list {vs : List Value} {count : Nat} (hc : count = vs.length)
    (hl : t.lines[address]? = some ⟨.list count, place⟩)
    (h : Exec s (.list vs :: operands) (address + 1) y) :
    Exec s (vs.reverse ++ operands) address y := by
  refine .plain ht (.list count) hl rfl rfl fun n hn => ?_
  rw [step, bind_assoc]
  exact popMany_left hc (push_next h hn)

theorem create {callee : Callee} {passing : Passing} {passed : Passed} (hp : passing.Fits passed)
    {k : Instance → Attempt Unit}
    (hl : t.lines[address]? = some ⟨.create callee.name callee.inherited passing, place⟩)
    (h : ∀ i, Exec s (.template i :: operands) (address + 1) (k i)) :
    Exec s (passed.laid ++ operands) address
      (instantiate s.settings (s.env.atPlace place) callee passed >>= k) := by
  refine .plain ht (.create callee.name callee.inherited passing) hl rfl rfl fun n hn => ?_
  rw [step, bind_assoc]
  refine popArguments_left hp ?_
  rw [bind_assoc]
  refine bothAttempt ((codeTie s place _ _).bond.instantiate callee (.refl passed) (.inl fun _ _ => trivial) ())
    (fun _ _ hm => hm.ended) fun i _ hi => ?_
  cases hi.1.eq
  exact push_next (h i) hn

theorem createComputed {name : String} {passing : Passing} {passed : Passed}
    (hp : passing.Fits passed) {k : Instance → Attempt Unit}
    (hl : t.lines[address]? = some ⟨.createComputed passing, place⟩)
    (h : ∀ i, Exec s (.template i :: operands) (address + 1) (k i)) :
    Exec s (passed.laid ++ .text name :: operands) address
      (instantiateComputed s.settings (s.env.atPlace place) name passed >>= k) := by
  refine .plain ht (.createComputed passing) hl rfl rfl fun n hn => ?_
  rw [step, bind_assoc]
  refine popArguments_left hp ?_
  rw [bind_assoc]
  refine pop_left ?_
  rw [textOf, liftM_pure, pure_bind, bind_assoc]
  refine bothAttempt ((codeTie s place _ _).bond.instantiateComputed (fun _ _ => trivial) name (.refl passed) ())
    (fun _ _ hm => hm.ended) fun i _ hi => ?_
  cases hi.eq
  exact push_next (h i) hn

theorem createAnonymous {inner : Code} {program : Program} (hp : program.toCode = inner)
    (hl : t.lines[address]? = some ⟨.createAnonymous inner, place⟩)
    (h : Exec s (.template (enclosed s.settings s.env program) :: operands) (address + 1) y) :
    Exec s operands address y := by
  refine .instr (f := fun _ => program) ht hl (fun c hc => ?_) fun n hn => push_next h hn
  cases hc
  exact hp

theorem map {vs : List Value} {count : Nat} (hc : count = vs.length)
    (hvs : ∀ v ∈ vs, ∃ i, v = .template i)
    (hl : t.lines[address]? = some ⟨.map count, place⟩)
    (h : ∀ w, Exec s (w :: operands) (address + 1) (k w)) :
    Exec s (vs.reverse ++ v :: operands) address
      (liftM (mapValue s.settings (s.env.atPlace place) v (vs.map Value.template?)) >>= k) := by
  refine .plain ht (.map count) hl rfl rfl fun n hn => ?_
  rw [step, bind_assoc]
  refine popMany_left hc ?_
  rw [instancesOf_eq hvs, pure_bind, bind_assoc]
  refine pop_left ?_
  rw [bind_assoc]
  refine both ((codeTie s place _ _).bond.mapValue (Items.Alike.refl (fun _ => rfl) vs).templates
    (.inl trivial) (.refl (fun _ => rfl) v) ()) fun w _ hw => ?_
  cases hw.eq
  exact push_next (h w) hn

theorem render {k : String → Attempt Unit} (hl : t.lines[address]? = some ⟨.render, place⟩)
    (h : ∀ str, Exec s (.text str :: operands) (address + 1) (k str)) :
    Exec s (v :: operands) address
      (liftM (renderEarly s.settings (s.env.atPlace place) v) >>= k) := by
  refine .plain ht .render hl rfl rfl fun n hn => ?_
  rw [step, bind_assoc]
  refine pop_left ?_
  rw [bind_assoc]
  refine both ((codeTie s place _ _).bond.renderEarly (.refl (fun _ => rfl) v) ()) fun str _ hstr => ?_
  subst hstr
  exact push_next (h str) hn

theorem write {separator format null : Option Value} {set : OptionSet}
    (hset : set = ⟨separator.isSome, format.isSome, null.isSome⟩) {k : Unit → Attempt Unit}
    (hl : t.lines[address]? = some ⟨.write set, place⟩)
    (h : Exec s operands (address + 1) (k ())) :
    Exec s (null.toList ++ (format.toList ++ (separator.toList ++ v :: operands))) address
      (liftM (renderOptions s.settings (s.env.atPlace place) separator format null) >>= fun options =>
        liftM (writeExpression s.settings (s.env.atPlace place) options v) >>= k) := by
  subst hset
  refine .plain ht (.write _) hl rfl rfl fun n hn => ?_
  rw [step, popOptions, renderOptions, bind_assoc, liftM_bind, liftM_bind, bind_assoc, bind_assoc]
  refine popOption_both null fun null => ?_
  rw [liftM_bind, liftM_bind, bind_assoc, bind_assoc]
  refine popOption_both format fun format => ?_
  rw [liftM_bind, liftM_bind, bind_assoc, bind_assoc]
  refine popOption_both separator fun separator => ?_
  rw [liftM_pure, pure_bind, pure_bind, bind_assoc]
  refine pop_left ?_
  rw [bind_assoc]
  exact both ((codeTie s place _ _).bond.writeExpression _ (.refl (fun _ => rfl) v) ()) fun _ _ _ =>
    next_left h hn

theorem not (hl : t.lines[address]? = some ⟨.not, place⟩)
    (h : Exec s (.bool (!v.isTruthy) :: operands) (address + 1) y) :
    Exec s (v :: operands) address y := by
  refine .plain ht .not hl rfl rfl fun n hn => ?_
  rw [step, bind_assoc]
  exact pop_left (push_next h hn)

theorem and {w : Value} (hl : t.lines[address]? = some ⟨.and, place⟩)
    (h : Exec s (.bool (v.isTruthy && w.isTruthy) :: operands) (address + 1) y) :
    Exec s (w :: v :: operands) address y := by
  refine .plain ht .and hl rfl rfl fun n hn => ?_
  rw [step, bind_assoc]
  refine pop_left ?_
  rw [bind_assoc]
  exact pop_left (push_next h hn)

theorem or {w : Value} (hl : t.lines[address]? = some ⟨.or, place⟩)
    (h : Exec s (.bool (v.isTruthy || w.isTruthy) :: operands) (address + 1) y) :
    Exec s (w :: v :: operands) address y := by
  refine .plain ht .or hl rfl rfl fun n hn => ?_
  rw [step, bind_assoc]
  refine pop_left ?_
  rw [bind_assoc]
  exact pop_left (push_next h hn)

theorem jump {target : Nat} (hl : t.lines[address]? = some ⟨.jump target, place⟩)
    (hle : address < target) (h : Exec s operands target y) : Exec s operands address y :=
  .plain ht (.jump target) hl rfl rfl fun _ hn => jump_left h hn hle

theorem jumpUnless {target : Nat} (hl : t.lines[address]? = some ⟨.jumpUnless target, place⟩)
    (hle : address < target) (htrue : v.isTruthy = true → Exec s operands (address + 1) y)
    (hfalse : v.isTruthy = false → Exec s operands target y) :
    Exec s (v :: operands) address y := by
  refine .plain ht (.jumpUnless target) hl rfl rfl fun n hn => ?_
  rw [step, bind_assoc]
  refine pop_left ?_
  cases hv : v.isTruthy with
  | true => exact next_left (htrue hv) hn
  | false => exact jump_left (hfalse hv) hn hle

theorem jumpIfSet {name : String} {target : Nat}
    (hl : t.lines[address]? = some ⟨.jumpIfSet name target, place⟩) (hle : address < target)
    (hset : isPassed s.env name = true → Exec s operands target y)
    (hunset : isPassed s.env name = false → Exec s operands (address + 1) y) :
    Exec s operands address y := by
  refine .plain ht (.jumpIfSet name target) hl rfl rfl fun n hn => ?_
  have he : isPassed (s.env.atPlace place) name = isPassed s.env name := rfl
  rw [step, he]
  cases hp : isPassed s.env name with
  | true => exact jump_left (hset hp) hn hle
  | false => exact next_left (hunset hp) hn

theorem storeDefault {name : String} {k : Unit → Attempt Unit}
    (hl : t.lines[address]? = some ⟨.storeDefault name, place⟩)
    (h : Exec s operands (address + 1) (k ())) :
    Exec s (v :: operands) address (liftM (storeDefault s.env name v) >>= k) := by
  refine .plain ht (.storeDefault name) hl rfl rfl fun n hn => ?_
  rw [step, bind_assoc]
  refine pop_left ?_
  rw [bind_assoc]
  exact both ((codeTie s place _ _).bond.storeDefault name (.refl (fun _ => rfl) v) ()) fun _ _ _ =>
    next_left h hn

end Exec

end

end Stencil
