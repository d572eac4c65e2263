import Stencil.Proofs.Assembly
import Stencil.Proofs.Evaluator
import Stencil.Proofs.Still
import Stencil.Proofs.Tie
/-! Code does what its tree says: execution from an address stays side by side with evaluation. -/

namespace Stencil

open Rendering

/-! ## States side by side -/

/-- Both machines call the same instances, and go on from states that are alike apart from what only
code needs. -/
def codeAccord : Accord := fun env bound env' bound' kept =>
  env = env' ∧ bound = bound' ∧ (∀ m m', kept m m' → m.still = m'.still) ∧
    ∀ m m' n n', kept m m' → m.Keeps n → n.still = n'.still → kept n n'

/-- What stays the same while an instance runs: its environment, and the operands and addresses of
those that called it. -/
structure Scene where
  settings : Settings
  env : Env
  below : List Value
  nexts : Nat → Nat

/-- The machine on the left is at an address, with operands on top of those that were there before. The
other is alike apart from that. -/
structure At (s : Scene) (operands : List Value) (address : Nat) (m m' : Machine) : Prop where
  still : m.still = m'.still
  stack : m.stack = operands ++ s.below
  live : s.env.scope < m.frames.size
  next : m.frames.next s.env.scope = address
  nexts : ∀ other < s.env.scope, m.frames.next other = s.nexts other

/-- The machine on the left has come to an end, perhaps with operands left over. -/
structure Ended (s : Scene) (m m' : Machine) : Prop where
  still : m.still = m'.still
  stack : ∃ operands, m.stack = operands ++ s.below
  live : s.env.scope < m.frames.size
  nexts : ∀ other < s.env.scope, m.frames.next other = s.nexts other

variable {s : Scene} {operands : List Value} {address : Nat} {m m' n n' : Machine}

namespace At

theorem ended (h : At s operands address m m') : Ended s m m' :=
  ⟨h.still, ⟨operands, h.stack⟩, h.live, h.nexts⟩

/-- Instances that are called leave the state of their caller alone. -/
theorem keeps (h : At s operands address m m') (hk : m.Keeps n)
    (hs : n.still = n'.still) : At s operands address n n' where
  still := hs
  stack := hk.stack.trans h.stack
  live := Nat.lt_of_lt_of_le h.live hk.size
  next := (hk.next _ h.live).trans h.next
  nexts other ho := (hk.next other (Nat.lt_trans ho h.live)).trans (h.nexts other ho)

/-- Only the machine that runs code moves to another address. -/
theorem setNext (h : At s operands address m m') (target : Nat) :
    At s operands target (m.changeFrames fun f => f.setNext s.env.scope target) m' where
  still := (m.still_setNext _ _).trans h.still
  stack := h.stack
  live := Nat.lt_of_lt_of_eq h.live (m.frames.size_change _ _).symm
  next := m.frames.next_setNext h.live _
  nexts other ho := (m.frames.next_setNext_of_ne (Nat.ne_of_gt ho) _).trans (h.nexts other ho)

theorem changeFrames (h : At s operands address m m') {F : Frames → Frames}
    (hs : ∀ f, (F f).still = F f.still) (hsize : ∀ f, (F f).size = f.size)
    (hnext : ∀ f other, (F f).next other = f.next other) :
    At s operands address (m.changeFrames F) (m'.changeFrames F) :=
  h.keeps ⟨rfl, Nat.le_of_eq (hsize _).symm, fun other _ => hnext _ other⟩
    (Machine.still_changeFrames hs h.still)

end At

/-- An instance that runs as code and as a tree. -/
def codeTie (s : Scene) (place : Option Span) (operands : List Value) (address : Nat) :
    Tie codeAccord where
  settings := s.settings
  env := s.env.atPlace place
  env' := s.env.atPlace place
  bare := Eq
  state := At s operands address
  allowed _ := True
  found _ _ := True
  inner _ := True
  abreast := .refl _
  here := .refl (fun _ => rfl) _
  program_eq _ _ h := h ▸ rfl
  sink_eq _ _ h :=
    have hs := Machine.still_eq_iff.mp h.still
    ⟨hs.2.1, hs.2.2.1⟩
  withSink m m' sink cursor h :=
    have hs := Machine.still_eq_iff.mp h.still
    h.keeps ⟨rfl, Nat.le_refl _, fun _ _ => rfl⟩
      (Machine.still_eq_iff.mpr ⟨hs.1, rfl, rfl, hs.2.2.2⟩)
  report _ m m' kind arguments causes _ h :=
    h.keeps ⟨rfl, Nat.le_refl _, fun _ _ => rfl⟩
      (Machine.still_report _ _ kind arguments causes h.still)
  usual := .all
  outputFailure := trivial
  isEarly_eq m m' h := by
    rw [← Frames.still_isEarly, (Machine.still_eq_iff.mp h.still).1, Frames.still_isEarly]
  setEarly m m' early h := h.changeFrames (fun f => f.still_setEarly _ _)
    (fun f => f.size_change _ _) fun f other => f.next_setEarly _ other _
  record m m' output source h := h.changeFrames (fun f => f.still_recordWriting _)
    (fun f => f.size_recordWriting _) fun f => f.next_recordWriting _
  keepDefault m m' name v v' hv h := by
    cases hv.eq
    exact h.changeFrames (fun f => f.still_storeDefault _ _ _) (fun f => f.size_change _ _)
      fun f other => f.next_storeDefault _ other _ _
  lookup m m' name h := by
    rw [← Frames.still_lookup, (Machine.still_eq_iff.mp h.still).1, Frames.still_lookup]
    exact Value.Alike.refl_option (fun _ => rfl) _
  resolve callee := .modifyGet (fun _ => rfl) fun m m' h => by
    have hs := Machine.still_eq_iff.mp h.still
    rw [hs.2.2.2]
    exact ⟨⟨rfl, trivial⟩, h.keeps ⟨rfl, Nat.le_refl _, fun _ _ => rfl⟩
      (Machine.still_eq_iff.mpr ⟨hs.1, hs.2.1, hs.2.2.1, rfl⟩)⟩
  fresh _ _ _ _ := rfl
  enclosed _ _ := rfl
  call _ _ _ h := ⟨rfl, h.eq, fun _ _ h => h.still, fun _ _ _ _ h hk hs => h.keeps hk hs⟩

/-! ## Operands -/

section

variable {α β γ δ : Type} {post : Option α → Option β → Machine → Machine → Prop} {y : Attempt β} {v : Value}

theorem push_left {f : Unit → Attempt α}
    (h : Coupled codeAccord (At s (v :: operands) address) (f ()).run y.run post) :
    Coupled codeAccord (At s operands address)
      ((liftM (push v) : Attempt Unit) >>= f).run y.run post := by
  intro m m' hm
  rw [Attempt.run_lift_bind]
  exact h { m with stack := v :: m.stack } m'
    ⟨hm.still, congrArg (v :: ·) hm.stack, hm.live, hm.next, hm.nexts⟩

theorem pop_left {f : Value → Attempt α}
    (h : Coupled codeAccord (At s operands address) (f v).run y.run post) :
    Coupled codeAccord (At s (v :: operands) address)
      ((liftM pop : Attempt Value) >>= f).run y.run post := by
  intro m m' hm
  have hp : pop m = .done v { m with stack := operands ++ s.below } := by
    simp only [pop, hm.stack, List.cons_append]
  rw [Attempt.run_lift_bind, bind_apply, hp]
  exact h _ m' ⟨hm.still, rfl, hm.live, hm.next, hm.nexts⟩

theorem popMany_left {vs : List Value} {n : Nat} (hn : n = vs.length) {f : List Value → Attempt α}
    (h : Coupled codeAccord (At s operands address) (f vs).run y.run post) :
    Coupled codeAccord (At s (vs.reverse ++ operands) address)
      ((liftM (popMany n) : Attempt (List Value)) >>= f).run y.run post := by
  subst hn
  intro m m' hm
  have hp : popMany vs.length m = .done vs { m with stack := operands ++ s.below } := by
    have hl : vs.length = vs.reverse.length := List.length_reverse.symm
    rw [popMany, hm.stack, hl, List.append_assoc, List.take_left, List.drop_left, List.reverse_reverse,
      if_pos (by simp)]
  rw [Attempt.run_lift_bind, bind_apply, hp]
  exact h _ m' ⟨hm.still, rfl, hm.live, hm.next, hm.nexts⟩

/-- Both sides do the same with their states, and go on with related values. -/
theorem both {R : Machine → Machine → Prop} {Q : γ → δ → Prop} {x : Rendering γ} {z : Rendering δ}
    {f : γ → Attempt α} {g : δ → Attempt β} (hx : Matched codeAccord R Q x z)
    (h : ∀ a b, Q a b → Coupled codeAccord R (f a).run (g b).run post) :
    Coupled codeAccord R ((liftM x : Attempt γ) >>= f).run ((liftM z : Attempt δ) >>= g).run post := by
  rw [Attempt.run_lift_bind, Attempt.run_lift_bind]
  exact Coupled.bind hx fun a b m m' ⟨hq, hm⟩ => h a b hq m m' hm

/-- Both sides try the same, and go on with related values unless both fail. -/
theorem bothAttempt {R : Machine → Machine → Prop} {Q : γ → δ → Prop} {x : Attempt γ} {z : Attempt δ}
    {f : γ → Attempt α} {g : δ → Attempt β} (hx : Attempt.Matched codeAccord R Q x z)
    (hfail : ∀ m m', R m m' → post none none m m')
    (h : ∀ a b, Q a b → Coupled codeAccord R (f a).run (g b).run post) :
    Coupled codeAccord R (x >>= f).run (z >>= g).run post :=
  Coupled.bind hx fun
    | _, _, m, m', ⟨.some hq, hm⟩ => h _ _ hq m m' hm
    | _, _, m, m', ⟨.none, hm⟩ => .done (hfail m m' hm) rfl

end

/-! ## Execution -/

/-- Goes on after an instruction. -/
def follow (settings : Settings) (env : Env) (n : Nat) : Flow → Attempt Unit
  | .next => execute settings env n
  | .jump target => do
    changeFrames fun f => f.setNext env.scope target
    execute settings env n

/-- From an address on, execution with enough steps left does the same as `y`. -/
def Exec (s : Scene) (operands : List Value) (address : Nat) (y : Attempt Unit) : Prop :=
  ∀ n, s.env.program.lines.length < address + n →
    Coupled codeAccord (At s operands address) (execute s.settings s.env n).run y.run
      fun _ _ => Ended s

theorem execute_line {settings : Settings} {env : Env} {n : Nat} {raw : Instr Nat Nat}
    {place : Option Span} {instr : Instr String Program}
    (hl : env.program.lines[m.frames.next env.scope]? = some ⟨raw, place⟩)
    (hi : raw.convertM (fun id => (constant (env.atPlace place) id : Attempt String))
      (subprogram settings (env.atPlace place)) = pure instr) :
    (execute settings env (n + 1)).run m =
      (step settings (env.atPlace place) instr >>= follow settings env n).run
        (m.changeFrames fun f => f.setNext env.scope (m.frames.next env.scope + 1)) := by
  have hf : Rendering.frames m = .done m.frames m := rfl
  rw [execute, Attempt.run_lift_bind, bind_apply, hf]
  dsimp only [Course.bind]
  rw [hl]
  dsimp only
  rw [hi, pure_bind, Attempt.run_lift_bind]
  rfl

/-- Goes on with the next instruction. -/
theorem next_left {y : Attempt Unit} (h : Exec s operands address y) {n : Nat}
    (hn : s.env.program.lines.length < address + n) :
    Coupled codeAccord (At s operands address)
      ((pure Flow.next : Attempt Flow) >>= follow s.settings s.env n).run y.run
      fun _ _ => Ended s := by
  rw [pure_bind]
  exact h n hn

/-- Puts a value on top and goes on with the next instruction. -/
theorem push_next {v : Value} {y : Attempt Unit} (h : Exec s (v :: operands) address y) {n : Nat}
    (hn : s.env.program.lines.length < address + n) :
    Coupled codeAccord (At s operands address)
      (((liftM (push v) : Attempt Unit) >>= fun _ => pure Flow.next) >>= follow s.settings s.env n).run
      y.run fun _ _ => Ended s := by
  rw [bind_assoc]
  exact push_left (next_left h hn)

/-- Goes on at an address further on. -/
theorem jump_left {target : Nat} {y : Attempt Unit}
    (h : Exec s operands target y) {n : Nat}
    (hn : s.env.program.lines.length < address + n) (hle : address ≤ target) :
    Coupled codeAccord (At s operands address)
      ((pure (Flow.jump target) : Attempt Flow) >>= follow s.settings s.env n).run y.run
      fun _ _ => Ended s := by
  rw [pure_bind, follow, Attempt.run_lift_bind]
  exact fun m m' hm => h n (by omega) _ m' (hm.setNext target)

/-! ## Code at an address -/

section

variable {t : Template} (ht : t.code = s.env.program.toCode)
include ht

theorem length_lines : s.env.program.lines.length = t.lines.length := by
  rw [← ht]
  exact Line.length_pool _ _

/-- At its end, code is done. -/
theorem Exec.finish : Exec s operands t.lines.length (pure ()) := by
  intro n hn m m' hm
  rw [length_lines ht] at hn
  cases n with
  | zero => exact absurd hn (Nat.lt_irrefl _)
  | succ n =>
    have hf : Rendering.frames m = .done m.frames m := rfl
    have hl : s.env.program.lines[m.frames.next s.env.scope]? = none := by
      rw [hm.next]
      exact List.getElem?_eq_none (Nat.le_of_eq (length_lines ht))
    rw [execute, Attempt.run_lift_bind, bind_apply, hf]
    dsimp only [Course.bind]
    rw [hl]
    exact .done hm.ended rfl

/-- An instruction does what comes before `y` if it is so in the state behind it. -/
theorem Exec.instr {i : Instr String Code} {place : Option Span} {y : Attempt Unit} {f : Code → Program}
    (hl : t.lines[address]? = some ⟨i, place⟩) (hf : ∀ c ∈ i.inner?, (f c).toCode = c)
    (h : ∀ n, s.env.program.lines.length < address + 1 + n →
      Coupled codeAccord (At s operands (address + 1))
        (step s.settings (s.env.atPlace place) (i.convert id f) >>= follow s.settings s.env n).run y.run
        fun _ _ => Ended s) :
    Exec s operands address y := by
  intro n hn m m' hm
  have ha := (List.getElem?_eq_some_iff.mp hl).1
  rw [length_lines ht] at hn
  cases n with
  | zero => exact absurd hn (Nat.not_lt.mpr (Nat.le_of_lt ha))
  | succ n =>
    obtain ⟨raw, hraw, hi⟩ := Program.resolve_line ht hl hf
    rw [execute_line (by rw [hm.next]; exact hraw) (hi s.settings (s.env.atPlace place) rfl)]
    have hs := hm.setNext (address + 1)
    rw [← hm.next] at hs
    exact h n (by rw [length_lines ht]; omega) _ m' (hm.next ▸ hs)

/-- An instruction that holds no inner template. -/
theorem Exec.plain (i : Instr String Program) {j : Instr String Code} {place : Option Span}
    {y : Attempt Unit} (hl : t.lines[address]? = some ⟨j, place⟩) (hj : j.inner? = none)
    (hi : j.convert id (fun _ => s.env.program) = i)
    (h : ∀ n, s.env.program.lines.length < address + 1 + n →
      Coupled codeAccord (At s operands (address + 1))
        (step s.settings (s.env.atPlace place) i >>= follow s.settings s.env n).run y.run
        fun _ _ => Ended s) :
    Exec s operands address y := by
  subst hi
  exact .instr ht hl (by rw [hj]; exact nofun) h

end

end Stencil
