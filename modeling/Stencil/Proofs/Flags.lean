import Stencil.Proofs.Evaluating
/-! What an instruction does to the flags of frames. It touches no flag but that of its own frame, which is up while
a value in parentheses is rendered, and down again afterwards if it was down before. -/

namespace Stencil

open Rendering

namespace Frames

variable {f g k l : Frames} {n scope : Nat}

/-- Later frames: those that there were run early if they did, and the first `n` have the same addresses. -/
structure Later (n : Nat) (f k : Frames) : Prop where
  retained : k.retained = f.retained
  size : f.size ≤ k.size
  early : ∀ other < f.size, k.isEarly other = f.isEarly other
  next : ∀ other < n, k.next other = f.next other

/-- The same frames with the same addresses. All but one run early if they did. -/
structure Aside (scope : Nat) (f k : Frames) : Prop where
  retained : k.retained = f.retained
  size : k.size = f.size
  early : ∀ other, other ≠ scope → k.isEarly other = f.isEarly other
  next : ∀ other, k.next other = f.next other

/-- Later frames as one of them knows: all others that there were run early if they did, and the first `n` have the
same addresses. -/
structure Beyond (scope n : Nat) (f k : Frames) : Prop where
  retained : k.retained = f.retained
  size : f.size ≤ k.size
  early : ∀ other < f.size, other ≠ scope → k.isEarly other = f.isEarly other
  next : ∀ other < n, k.next other = f.next other

namespace Later

theorem refl (n : Nat) (f : Frames) : f.Later n f := ⟨rfl, Nat.le_refl _, fun _ _ => rfl, fun _ _ => rfl⟩

theorem trans (h : f.Later n k) (h' : k.Later n l) : f.Later n l where
  retained := h'.retained.trans h.retained
  size := Nat.le_trans h.size h'.size
  early other ho := (h'.early other (Nat.lt_of_lt_of_le ho h.size)).trans (h.early other ho)
  next other ho := (h'.next other ho).trans (h.next other ho)

theorem mono {m : Nat} (hm : m ≤ n) (h : f.Later n k) : f.Later m k :=
  ⟨h.retained, h.size, h.early, fun other ho => h.next other (Nat.lt_of_lt_of_le ho hm)⟩

theorem of_since {new : List Event} (h : f.Since n k new) : f.Later n k :=
  ⟨h.retained, h.size, fun _ ho => h.isEarly ho, h.next⟩

theorem beyond (h : f.Later n k) : f.Beyond scope n k := ⟨h.retained, h.size, fun other ho _ => h.early other ho, h.next⟩

theorem recordCompletion (f : Frames) (c : Completion) : f.Later f.size (f.recordCompletion c) where
  retained := f.retained_recordCompletion c
  size := Nat.le_of_eq (f.size_recordCompletion c).symm
  early other _ := by rw [isEarly_eq, face?_recordCompletion, ← isEarly_eq]
  next other _ := f.next_recordCompletion c other

end Later

namespace Aside

theorem refl (scope : Nat) (f : Frames) : f.Aside scope f := ⟨rfl, rfl, fun _ _ => rfl, fun _ => rfl⟩

theorem trans (h : f.Aside scope k) (h' : k.Aside scope l) : f.Aside scope l where
  retained := h'.retained.trans h.retained
  size := h'.size.trans h.size
  early other ho := (h'.early other ho).trans (h.early other ho)
  next other := (h'.next other).trans (h.next other)

theorem change (f : Frames) (scope : Nat) {c : Frame → Frame} (hn : ∀ frame, (c frame).next = frame.next) :
    f.Aside scope (f.change scope c) :=
  ⟨rfl, f.size_change _ _, fun _ ho => isEarly_change ho.symm _, f.next_change hn scope⟩

theorem setEarly (f : Frames) (scope : Nat) (early : Bool) : f.Aside scope (f.setEarly scope early) :=
  change f scope (c := fun frame => { frame with early }) fun _ => rfl

theorem recordWriting (f : Frames) (w : Writing) : f.Aside w.scope (f.recordWriting w) where
  retained := f.retained_recordWriting w
  size := f.size_recordWriting w
  early other _ := by rw [isEarly_eq, face?_recordWriting, ← isEarly_eq]
  next := f.next_recordWriting w

theorem beyond (h : f.Aside scope k) : f.Beyond scope n k :=
  ⟨h.retained, Nat.le_of_eq h.size.symm, fun other _ ho => h.early other ho, fun other _ => h.next other⟩

end Aside

namespace Beyond

theorem trans (h : f.Beyond scope n k) (h' : k.Beyond scope n l) : f.Beyond scope n l where
  retained := h'.retained.trans h.retained
  size := Nat.le_trans h.size h'.size
  early other ho hs := (h'.early other (Nat.lt_of_lt_of_le ho h.size) hs).trans (h.early other ho hs)
  next other ho := (h'.next other ho).trans (h.next other ho)

theorem mono {m : Nat} (hm : m ≤ n) (h : f.Beyond scope n k) : f.Beyond scope m k :=
  ⟨h.retained, h.size, h.early, fun other ho => h.next other (Nat.lt_of_lt_of_le ho hm)⟩

/-- Frames are later ones if the one that knows runs early if it did. -/
theorem later (h : f.Beyond scope n k) (hearly : k.isEarly scope = f.isEarly scope) : f.Later n k where
  retained := h.retained
  size := h.size
  early other ho := by
    by_cases hs : other = scope
    · rw [hs, hearly]
    · exact h.early other ho hs
  next := h.next

end Beyond

theorem isEarly_storeDefault (f : Frames) (scope : Nat) (name : String) (v : Value) (other : Nat) :
    (f.storeDefault scope name v).isEarly other = f.isEarly other := by
  rw [storeDefault, isEarly, isEarly, get?_change]
  split
  · rw [Option.map_map]
    rfl
  · rfl

theorem isEarly_recordWriting (f : Frames) (w : Writing) (scope : Nat) :
    (f.recordWriting w).isEarly scope = f.isEarly scope := by
  rw [isEarly_eq, face?_recordWriting, ← isEarly_eq]

/-- A frame that is there runs early or not, as said. -/
def Flagged (f : Frames) (scope : Nat) (early : Bool) : Prop := scope < f.size ∧ f.isEarly scope = early

theorem Flagged.later {early : Bool} (h : f.Flagged scope early) (hk : f.Later n k) : k.Flagged scope early :=
  ⟨Nat.lt_of_lt_of_le h.1 hk.size, (hk.early _ h.1).trans h.2⟩

end Frames

/-! ## Courses -/

/-- From frames on, a course of an instance calls others only while the frame of the instance runs early or not, as
said. Between calls it changes nothing but its own frame. -/
inductive Course.Along {α : Type} (env : Env) (early : Bool) (post : α → Frames → Prop) : Frames → Course α → Prop where
  | done {f : Frames} {a : α} {m : Machine} (aside : f.Aside env.scope m.frames) (h : post a m.frames) :
      Along env early post f (.done a m)
  | call {f : Frames} {bound : Instance} {m : Machine} {rest : Machine → Course α} (aside : f.Aside env.scope m.frames)
      (flag : m.frames.Flagged env.scope early)
      (back : ∀ k : Machine, m.frames.Later m.frames.size k.frames → Along env early post k.frames (rest k)) :
      Along env early post f (.call env bound m rest)
  | fallback {f : Frames} {rest : Course α} (h : Along env early post f rest) : Along env early post f (.fallback rest)

variable {α β : Type} {settings : Settings} {env : Env} {early : Bool}

namespace Course.Along

variable {post : α → Frames → Prop} {post' : β → Frames → Prop} {f g : Frames} {c : Course α}

theorem weaken (h : c.Along env early post g) (hf : f.Aside env.scope g) : c.Along env early post f := by
  induction h with
  | done aside h => exact .done (hf.trans aside) h
  | call aside flag back => exact .call (hf.trans aside) flag back
  | fallback _ ih => exact .fallback (ih hf)

theorem bind {next : α → Machine → Course β} (h : c.Along env early post f)
    (hn : ∀ a m, post a m.frames → (next a m).Along env early post' m.frames) :
    (c.bind next).Along env early post' f := by
  induction h with
  | done aside h => exact (hn _ _ h).weaken aside
  | call aside flag _ ih => exact .call aside flag ih
  | fallback _ ih => exact .fallback ih

theorem mono {post' : α → Frames → Prop} (h : c.Along env early post f) (hp : ∀ a k, post a k → post' a k) :
    c.Along env early post' f := by
  induction h with
  | done aside h => exact .done aside (hp _ _ h)
  | call aside flag _ ih => exact .call aside flag ih
  | fallback _ ih => exact .fallback ih

end Course.Along

/-- What is known of frames while an instance calls nothing. -/
def Frames.asideFrom (f : Frames) (scope : Nat) (early : Bool) : Facts :=
  .plain Unit (fun _ _ _ => True) fun k => f.Aside scope k ∧ k.isEarly scope = early

theorem Frames.asideFrom_quiet (f : Frames) (settings : Settings) (env : Env) (early : Bool) :
    (f.asideFrom env.scope early).Quiet settings env :=
  Facts.plain_quiet (fun _ _ _ _ _ _ _ => trivial) (fun _ _ _ _ _ _ _ => trivial) fun k name v h =>
    ⟨h.1.trans (.change k env.scope (c := fun frame => { frame with defaults := Dict.insert name v frame.defaults })
      fun _ => rfl), (k.isEarly_storeDefault env.scope name v _).trans h.2⟩

/-- An action of an instance that goes along and leaves the flag of its frame as it is. -/
def Rendering.Along (env : Env) (early : Bool) (x : Rendering α) : Prop :=
  ∀ m : Machine, m.frames.Flagged env.scope early →
    (x m).Along env early (fun _ k => k.Flagged env.scope early) m.frames

namespace Rendering.Along

theorem pure (a : α) : Along env early (pure a : Rendering α) := fun _ h => .done (.refl _ _) h

theorem bind {x : Rendering α} {f : α → Rendering β} (h : Along env early x) (hf : ∀ a, Along env early (f a)) :
    Along env early (x >>= f) := fun m hm => (h m hm).bind fun a k hk => hf a k hk

theorem map {x : Rendering α} (h : Along env early x) (f : α → β) : Along env early (f <$> x) := by
  rw [← bind_pure_comp]
  exact h.bind fun _ => .pure _

theorem call (bound : Instance) : Along env early (call env bound) := fun _ hm =>
  .call (.refl _ _) hm fun _ hk => .done (.refl _ _) (hm.later hk)

theorem capture {x : Rendering Unit} (h : Along env early x) : Along env early (capture x) := fun m hm => by
  rw [capture_apply]
  exact (h { m with sink := .scratch m.cursor } hm).bind fun _ _ hk => .done (.refl _ _) hk

theorem modify {f : Machine → Machine} (h : ∀ m : Machine, m.frames.Aside env.scope (f m).frames)
    (hf : ∀ m : Machine, (f m).frames.isEarly env.scope = m.frames.isEarly env.scope) :
    Along env early (modify f : Rendering Unit) := fun m hm =>
  .done (h m) ⟨(h m).size ▸ hm.1, (hf m).trans hm.2⟩

/-- What calls nothing goes along. -/
theorem of_within {P : Frames → α → Prop} {x : Rendering α}
    (h : ∀ f : Frames, Within Permit.none ((f.asideFrom env.scope early).Holds ()) (P f) x) : Along env early x := by
  intro m hm
  have hx := h m.frames m (Facts.plain_holds.mpr ⟨⟨.refl _ _, hm.2⟩, trivial⟩)
  generalize x m = c at hx
  induction hx with
  | @done _ k hk =>
    obtain ⟨haside, hearly⟩ := (Facts.plain_holds.mp hk.2).1
    exact .done haside ⟨haside.size ▸ hm.1, hearly⟩
  | call h => cases h
  | fallback _ ih => exact .fallback ih

theorem of_link {Q : Frames → α → α → Prop} {x : Rendering α} (settings : Settings) (h : ∀ f : Frames,
    ((f.asideFrom_quiet settings env early).link fun _ _ _ _ _ => False).Matched (Q f) x x) :
    Along env early x :=
  of_within fun f => (f.asideFrom_quiet settings env early).of_link (h f)

end Rendering.Along

/-! ## Actions -/

section

variable (settings : Settings) (env : Env) (early : Bool)

/-- An attempt of an instance that goes along. -/
abbrev Attempt.Along (env : Env) (early : Bool) (x : Attempt α) : Prop := Rendering.Along env early x.run

variable {settings env early}

theorem Attempt.Along.bind {x : Attempt α} {f : α → Attempt β} (h : Along env early x) (hf : ∀ a, Along env early (f a)) :
    Along env early (x >>= f) :=
  Rendering.Along.bind h fun
    | none => Rendering.Along.pure _
    | some a => hf a

/-- An action at the beginning of an attempt. -/
theorem Attempt.Along.start {P : α → Frames → Prop} {Q : Option β → Frames → Prop} {x : Rendering α}
    {f : α → Attempt β} {m : Machine} {g : Frames} (h : (x m).Along env early P g)
    (hf : ∀ a (k : Machine), P a k.frames → ((f a).run k).Along env early Q k.frames) :
    (((liftM x : Attempt α) >>= f).run m).Along env early Q g := by
  have hlift : ((liftM x : Attempt α).run m).Along env early (fun o k => ∃ a, o = some a ∧ P a k) g :=
    Course.Along.bind h fun a _ ha => .done (.refl _ _) ⟨a, rfl, ha⟩
  refine Course.Along.bind hlift fun o k ho => ?_
  obtain ⟨a, rfl, ha⟩ := ho
  exact hf a k ha

theorem Attempt.Along.lift {x : Rendering α} (h : x.Along env early) : Along env early (liftM x : Attempt α) :=
  Rendering.Along.map h _

variable (settings)

theorem along_pop : pop.Along env early :=
  .of_within fun _ => Facts.Quiet.pop

theorem along_push (v : Value) : (push v).Along env early :=
  .of_within fun _ => Facts.Quiet.push (.refl Facts.plain_same v)

mutual

theorem along_writeValue (options : WriteOptions) : (v : Value) →
    (writeValue settings env options v).Along env early
  | .null => by
      rw [writeValue]
      cases options.null with
      | none => exact .pure ()
      | some s => exact .of_link settings fun f => ((f.asideFrom_quiet settings env early).link _).writeText s
  | .bool _ | .int _ | .float _ | .text _ | .object _ _ _ => by
      rw [writeValue]
      exact .of_link settings fun f => ((f.asideFrom_quiet settings env early).link _).writeScalar _ _ _
  | .sequence items => by
      rw [writeValue]
      exact along_writeItems options false items
  | .map entries => by
      rw [writeValue]
      exact .of_link settings fun f => ((f.asideFrom_quiet settings env early).link _).writeKeys options false _
  | .template bound => by
      rw [writeValue]
      cases options.format with
      | none => exact .call bound
      | some format =>
        exact .bind (.capture (.call bound)) fun _ =>
          .of_link settings fun f => ((f.asideFrom_quiet settings env early).link _).writeScalar _ _ _

theorem along_writeItems (options : WriteOptions) (seen : Bool) : (vs : List Value) →
    (writeItems settings env options seen vs).Along env early
  | [] => .pure ()
  | v :: vs => by
      rw [writeItems]
      split
      · exact along_writeItems options seen vs
      · exact .bind (.of_link settings fun f =>
            ((f.asideFrom_quiet settings env early).link _).writeSeparator options seen)
          fun _ => .bind (along_writeValue options v) fun _ => along_writeItems options true vs

end

theorem along_renderText (v : Value) : (renderText settings env v).Along env early := by
  cases v with
  | text s => exact .pure s
  | _ => exact .capture (along_writeValue settings {} _)

theorem along_readPropertyAt (target key : Value) : (readPropertyAt settings env target key).Along env early := by
  have hread (name : String) : (readProperty settings env target name).Along env early :=
    .of_link settings fun f => ((f.asideFrom_quiet settings env early).link _).readProperty
      (.refl (fun _ => ⟨rfl, trivial⟩) target) name
  unfold readPropertyAt
  split
  · exact .bind (.pure _) hread
  · exact .bind (along_renderText settings key) hread

theorem along_applyBuiltin (function : Builtin) (v : Value) : (applyBuiltin settings env function v).Along env early := by
  unfold applyBuiltin
  split
  · exact .bind (along_renderText settings v) fun _ => .pure _
  · exact .pure _

theorem along_popOption (present : Bool) : (popOption settings env present).Along env early := by
  unfold popOption
  split
  · exact .bind along_pop fun v => .bind (along_renderText settings v) fun _ => .pure _
  · exact .pure _

theorem along_popOptions (set : OptionSet) : (popOptions settings env set).Along env early :=
  .bind (along_popOption settings _) fun _ => .bind (along_popOption settings _) fun _ =>
    .bind (along_popOption settings _) fun _ => .pure _

theorem along_writeExpression (options : WriteOptions) (v : Value) :
    (writeExpression settings env options v).Along env early := by
  have hposition : position.Along env early := fun m hm => .done (.refl _ _) hm
  refine .bind hposition fun start => .bind (along_writeValue settings options v) fun _ => .bind hposition fun stop =>
    .modify (fun m => ?_) fun m => ?_
  · dsimp only [Machine.changeFrames]
    split
    · exact .refl _ _
    · exact .recordWriting m.frames ⟨env.scope, ⟨start, stop⟩, env.place⟩
  · dsimp only [Machine.changeFrames]
    split
    · rfl
    · exact Frames.isEarly_recordWriting _ _ _

/-! ## Instructions -/

/-- Whether an instruction renders a value in parentheses, or the name of a template, to text. -/
def Instr.renders {τ ι : Type} : Instr τ ι → Bool
  | .render => true
  | _ => false

/-- Instructions that render nothing in parentheses do not touch the flag of their frame. -/
theorem along_perform {i : Instr Nat Nat} (hi : i.renders = false) : Attempt.Along env early (perform settings env i) := by
  have hnext {x : Rendering Unit} (hx : x.Along env early) :
      Attempt.Along env early ((liftM x : Attempt Unit) >>= fun _ => pure Flow.next) :=
    .bind (.lift hx) fun _ => Rendering.Along.pure _
  cases hc : i.calls with
  | false => exact .of_within fun f => (f.asideFrom_quiet settings env early).perform_quiet hc
  | true =>
    cases i with
    | propertyAt =>
      rw [perform, Instr.convertM, pure_bind]
      exact .bind (.lift along_pop) fun key => .bind (.lift along_pop) fun target =>
        .bind (.lift (along_readPropertyAt settings target key)) fun _ => hnext (along_push _)
    | builtin function =>
      rw [perform, Instr.convertM, pure_bind]
      exact .bind (.lift along_pop) fun v => .bind (.lift (along_applyBuiltin settings function v)) fun _ =>
        hnext (along_push _)
    | write set =>
      rw [perform, Instr.convertM, pure_bind]
      exact .bind (.lift (along_popOptions settings set)) fun options => .bind (.lift along_pop) fun v =>
        hnext (along_writeExpression settings options v)
    | render => cases hi
    | _ => cases hc

/-- While a value in parentheses is rendered, the flag is up. -/
theorem along_renderEarly (v : Value) {m : Machine} (hm : m.frames.Flagged env.scope early) :
    (renderEarly settings env v m).Along env true (fun _ k => k.Flagged env.scope early) m.frames := by
  have hup : (m.frames.setEarly env.scope true).Flagged env.scope true :=
    ⟨Nat.lt_of_lt_of_eq hm.1 (m.frames.size_change _ _).symm, m.frames.isEarly_setEarly hm.1 true⟩
  refine Course.Along.weaken ?_ (Frames.Aside.setEarly m.frames env.scope true)
  refine (along_renderText settings v (m.changeFrames fun f => f.setEarly env.scope true) hup).bind fun text k hk => ?_
  have hdown := Frames.Aside.setEarly k.frames env.scope (m.frames.isEarly env.scope)
  exact .done hdown ⟨Nat.lt_of_lt_of_eq hk.1 hdown.size.symm, (k.frames.isEarly_setEarly hk.1 _).trans hm.2⟩

/-- While an instruction is carried out, the flag of its frame is as it was, or up if the instruction renders a value
in parentheses. Afterwards it is as it was. -/
theorem perform_flags (i : Instr Nat Nat) {m : Machine} (hm : m.frames.Flagged env.scope early) :
    ((perform settings env i).run m).Along env (early || i.renders) (fun _ k => k.Flagged env.scope early) m.frames := by
  cases hi : i.renders with
  | false =>
    rw [Bool.or_false]
    exact along_perform settings hi m hm
  | true =>
    cases i with
    | render =>
      rw [Bool.or_true, perform, Instr.convertM, pure_bind]
      refine Attempt.Along.start (P := fun _ k => k.Flagged env.scope early) ?_ fun v k hk => ?_
      · unfold pop
        split
        · exact .fallback (.done (.refl _ _) hm)
        · exact .done (.refl _ _) hm
      · refine Attempt.Along.start (along_renderEarly settings v hk) fun text l hl => ?_
        exact .done (.refl _ _) hl
    | _ => cases hi

end

/-! ## Runs -/

/-- An instance that is entered gets a frame of its own, behind all that there are. -/
theorem Machine.later_enter {caller : Option Env} {callee : Instance} {env : Env} {m k : Machine}
    (h : m.enter caller callee = (env, k)) : m.frames.Later m.frames.size k.frames ∧ env.scope = m.frames.size ∧
      k.frames.size = m.frames.size + 1 ∧ env.callers = chain caller := by
  cases h
  exact ⟨.of_since (.enter _ _ _), rfl, m.frames.size_enter _ _, rfl⟩

theorem Machine.later_leave {m : Machine} (hr : m.frames.retained = true) (env : Env) (start height : Nat) :
    m.frames.Later m.frames.size (m.leave env start height).frames := by
  rw [leave, changeFrames, Frames.exit_retained _ ((m.frames.retained_recordCompletion _).trans hr)]
  exact .recordCompletion _ _

theorem Machine.later_setNext (m : Machine) (scope address : Nat) :
    m.frames.Later scope (m.changeFrames fun f => f.setNext scope address).frames :=
  .of_since (.setNext (Nat.le_refl _) address)

theorem Flow.later (flow : Flow) (m : Machine) (scope : Nat) :
    m.frames.Later scope (m.changeFrames (flow.apply scope)).frames := by
  cases flow with
  | next => exact .refl _ _
  | jump target => exact m.later_setNext scope target

/-- An instruction is carried out after the address of the next one has been set. -/
theorem perform_fetched {m : Machine} (hs : env.scope < m.frames.size) (line : Line Nat Nat) (address : Nat) :
    ((perform settings (env.atPlace line.span) line.instr).run
      (m.changeFrames fun f => f.setNext env.scope address)).Along (env.atPlace line.span)
        (m.frames.isEarly env.scope || line.instr.renders)
        (fun _ k => k.Flagged env.scope (m.frames.isEarly env.scope)) (m.frames.setNext env.scope address) :=
  @perform_flags settings (env.atPlace line.span) _ line.instr _
    (.later ⟨hs, rfl⟩ (m.later_setNext env.scope address))

/-- An instruction leaves the flags of all frames as it found them. -/
theorem Frames.Beyond.fetched {f k : Frames} (hs : scope < f.size) {address : Nat}
    (h : (f.setNext scope address).Beyond scope (f.setNext scope address).size k)
    (hk : k.Flagged scope (f.isEarly scope)) : f.Later scope k := by
  have hset : f.Later scope (f.setNext scope address) := .of_since (.setNext (Nat.le_refl _) address)
  refine hset.trans ((h.later ?_).mono (Nat.le_trans (Nat.le_of_lt hs) hset.size))
  exact hk.2.trans (hset.early scope hs).symm

mutual

/-- Instances leave the flags of all frames as they found them. -/
theorem Invokes.later {caller : Option Env} {callee : Instance} {m k : Machine} {visits : List Visit} :
    Invokes settings caller callee m visits k → m.frames.retained = true → m.frames.Later m.frames.size k.frames
  | .refused _ hk, _ => hk ▸ .refl _ _
  | .entered _ he hrun, hr => by
      obtain ⟨henter, hscope, hsize, -⟩ := Machine.later_enter he
      have hlater := hrun.later (henter.retained.trans hr) (by omega)
      have hleave := Machine.later_leave (hlater.retained.trans (henter.retained.trans hr))
      exact henter.trans ((hscope ▸ hlater).trans ((hleave _ _ _).mono (Nat.le_trans henter.size hlater.size)))

theorem Runs.later {env : Env} {m k : Machine} {addresses : List Nat} {visits : List Visit} :
    Runs settings env m addresses visits k → m.frames.retained = true → env.scope < m.frames.size →
      m.frames.Later env.scope k.frames
  | .ends _, _, _ => .refl _ _
  | .fails _ _ does, hr, hs =>
      have ⟨hk, hflag⟩ := does.beyond (perform_fetched hs _ _) hr
      hk.fetched hs hflag
  | .continues _ _ does run, hr, hs =>
      have ⟨hk, hflag⟩ := does.beyond (perform_fetched hs _ _) hr
      have hnext := (hk.fetched hs hflag).trans (Flow.later _ _ env.scope)
      hnext.trans (run.later (hnext.retained.trans hr) (Nat.lt_of_lt_of_le hs hnext.size))

theorem Follows.beyond {env : Env} {early : Bool} {course : Course (Option Flow)} {flow : Option Flow} {k : Machine}
    {visits : List Visit} {post : Option Flow → Frames → Prop} {f : Frames} : Follows settings course flow visits k →
      course.Along env early post f → f.retained = true → f.Beyond env.scope f.size k.frames ∧ post flow k.frames
  | .done, .done aside hp, _ => ⟨aside.beyond, hp⟩
  | .call hi hf, .call aside _ back, hr => by
      have hm := aside.retained.trans hr
      have hlater := hi.later hm
      obtain ⟨hk, hp⟩ := hf.beyond (back _ hlater) (hlater.retained.trans hm)
      refine ⟨aside.beyond.trans ((hlater.mono (Nat.le_of_eq aside.size.symm)).beyond.trans (hk.mono ?_)), hp⟩
      exact Nat.le_trans (Nat.le_of_eq aside.size.symm) hlater.size

end

end Stencil
