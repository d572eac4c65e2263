import Stencil.Proofs.Deliveries
import Stencil.Proofs.Framing
/-! What renders tell. A diagnostic that a render delivers comes from compiling, or an instance was carrying
out an instruction when it was delivered, and then it tells where that is. -/

namespace Stencil

open Rendering

/-! ## Deliveries that go on -/

namespace Workspace

/-- More was delivered in a later state, and of each further delivery and its number something is known. -/
def Adds (P : Nat → Listener × Diagnostic → Prop) (w w' : Workspace) : Prop :=
  ∃ more, w'.delivered = w.delivered ++ more ∧ ∀ i t, more[i]? = some t → P (w.delivered.size + i) t

namespace Adds

variable {P Q : Nat → Listener × Diagnostic → Prop} {w w' w'' : Workspace}

theorem refl (w : Workspace) : w.Adds P w := ⟨#[], Array.append_empty.symm, fun _ _ ht => by simp at ht⟩

theorem append {more : Deliveries} (hw : w'.delivered = w.delivered ++ more) (h : ∀ t ∈ more, ∀ i, P i t) :
    w.Adds P w' := ⟨more, hw, fun _ t ht => h t (Array.mem_of_getElem? ht) _⟩

theorem deliver (w : Workspace) {l : Listener} {d : Diagnostic} (h : P w.delivered.size (l, d)) :
    w.Adds P (w.deliver l d) := by
  refine ⟨#[(l, d)], Array.push_eq_append, fun i t ht => ?_⟩
  obtain ⟨hi, rfl⟩ := Array.getElem?_eq_some_iff.mp ht
  obtain rfl : i = 0 := Nat.lt_one_iff.mp hi
  exact h

theorem trans (h : w.Adds P w') (h' : w'.Adds P w'') : w.Adds P w'' := by
  obtain ⟨more, hw, hmore⟩ := h
  obtain ⟨more', hw', hmore'⟩ := h'
  refine ⟨more ++ more', by rw [hw', hw, Array.append_assoc], fun i t ht => ?_⟩
  rw [Array.getElem?_append] at ht
  split at ht
  · exact hmore i t ht
  · have hi : w.delivered.size + i = w'.delivered.size + (i - more.size) := by
      rw [hw, Array.size_append]
      omega
    exact hi ▸ hmore' _ t ht

theorem mono (h : w.Adds P w')
    (hP : ∀ i t, w.delivered.size ≤ i → i < w'.delivered.size → P i t → Q i t) : w.Adds Q w' := by
  obtain ⟨more, hw, hmore⟩ := h
  refine ⟨more, hw, fun i t ht => hP _ t (Nat.le_add_right _ _) ?_ (hmore i t ht)⟩
  rw [hw, Array.size_append]
  exact Nat.add_lt_add_left (Array.getElem?_eq_some_iff.mp ht).1 _

theorem and (h : w.Adds P w') (h' : w.Adds Q w') : w.Adds (fun i t => P i t ∧ Q i t) w' := by
  obtain ⟨more, hw, hmore⟩ := h
  obtain ⟨more', hw', hmore'⟩ := h'
  obtain rfl : more = more' := Array.append_right_inj w.delivered |>.mp (hw.symm.trans hw')
  exact ⟨more, hw, fun i t ht => ⟨hmore i t ht, hmore' i t ht⟩⟩

end Adds

end Workspace

/-! ## Writers that have failed -/

/-- What writing leaves as it is of a sink: that it has failed, and that it cannot. -/
structure Sink.Leads (base s : Sink) : Prop where
  failed : base.failed = true → s.failed = true
  endless : base.room = none → s.room = none ∧ s.failed = base.failed

namespace Sink

variable {base s s' : Sink} {text : String}

theorem Leads.refl (s : Sink) : s.Leads s := ⟨id, fun h => ⟨h, rfl⟩⟩

theorem Leads.trans (h : base.Leads s) (h' : s.Leads s') : base.Leads s' where
  failed hb := h'.failed (h.failed hb)
  endless hb :=
    have ⟨hr, hf⟩ := h.endless hb
    (h'.endless hr).imp_right fun hf' => hf'.trans hf

theorem accept?_of_endless (h : s.room = none) (text : String) : s.accept? text ≠ none := by
  unfold accept?
  rw [h]
  nofun

theorem failed_accept? (h : s.accept? text = some s') : s'.failed = s.failed := by
  unfold accept? at h
  split at h <;> cases h
  rfl

theorem endless_accept? (h : s.accept? text = some s') (hs : s.room = none) : s'.room = none := by
  unfold accept? at h
  rw [hs] at h
  cases h
  rfl

theorem Leads.accept (h : base.Leads s) (ha : s.accept? text = some s') : base.Leads s' where
  failed hb := (failed_accept? ha).trans (h.failed hb)
  endless hb :=
    have ⟨hr, hf⟩ := h.endless hb
    ⟨endless_accept? ha hr, (failed_accept? ha).trans hf⟩

theorem Leads.refuse (h : base.Leads s) (ha : s.accept? text = none) : base.Leads s.refuse where
  failed _ := rfl
  endless hb := (s.accept?_of_endless (h.endless hb).1 text ha).elim

end Sink

/-- Sinks from one on, as facts. -/
def Facts.leading : Facts := .plain Sink (fun base s _ => base.Leads s) fun _ => True

theorem Facts.leading_lasting (settings : Settings) : leading.Lasting settings where
  kept _ _ := plain_kept (fun _ _ _ _ _ h ha => h.accept ha) (fun _ _ _ _ h _ ha => h.refuse ha)
    (fun _ _ cursor _ => ⟨.scratch cursor, .refl _⟩) (fun _ _ h => h) (fun _ _ _ h => h) fun _ _ _ h => h
  enter _ _ _ h := h
  setNext _ _ _ h := h
  exit _ _ _ h := h

theorem Invokes.leads {settings : Settings} {caller : Option Env} {callee : Instance} {m k : Machine}
    {visits : List Visit} (h : Invokes settings caller callee m visits k) : m.sink.Leads k.sink := by
  have hb : Facts.leading.contract.before m.sink caller callee m :=
    ⟨fun _ _ => .refl Facts.plain_same _, .refl Facts.plain_same _, Facts.plain_holds.mpr ⟨trivial, .refl _⟩⟩
  exact (Facts.plain_holds.mp ((Facts.leading_lasting settings).contract.invokes h hb)).2

/-! ## What instructions tell -/

/-- A problem of an instance in a state, as its listener is told. That a write failed is told once the
writer has failed, and not before. -/
def Machine.Tells (settings : Settings) (m : Machine) (env : Env) (failed : Bool) (t : Listener × Diagnostic) : Prop :=
  ∃ kind arguments causes, t = (settings.listener, m.diagnostic env kind arguments causes) ∧
    (kind = .outputFailure → m.sink.failed = false ∧ failed = true)

/-- In a render an instance carries out an instruction, which leads from one state to another. -/
structure Carries (settings : Settings) (bound : Instance) (start : Machine) (env : Env) (line : Line Nat Nat)
    (m k : Machine) : Prop where
  running : Reached settings bound start (.running env m)
  inside : env.program.lines[m.frames.next env.scope]? = some line
  does : ∃ flow visits, Follows settings ((perform settings (env.atPlace line.span) line.instr).run
    (m.changeFrames fun f => f.setNext env.scope (m.frames.next env.scope + 1))) flow visits k

/-- Where a delivery of a render comes from, given its number. -/
inductive Told (settings : Settings) (bound : Instance) (start : Machine) (i : Nat) (t : Listener × Diagnostic) :
    Prop where
  | compiling (found : t.2.OfCompiling)
  | carrying {env line m k} (carries : Carries settings bound start env line m k)
      (since : m.workspace.delivered.size ≤ i) (within : i < k.workspace.delivered.size)
      (tells : m.Tells settings (env.atPlace line.span) k.sink.failed t)

variable {settings : Settings} {bound : Instance} {start : Machine}

namespace Machine

variable {m l : Machine} {env : Env} {failed failed' : Bool} {t : Listener × Diagnostic}

/-- What an instance tells does not change with the state, as its frames stay. -/
theorem Framed.tells (hm : m.Framed env.activations) (hl : l.frames.Chain env.activations) {kind : Kind}
    {arguments causes : List String} (h : kind = .outputFailure → m.sink.failed = false ∧ failed = true) :
    m.Tells settings env failed (settings.listener, l.diagnostic env kind arguments causes) := by
  refine ⟨kind, arguments, causes, ?_, h⟩
  rw [diagnostic, diagnostic, (hm.of_frames hl).callPath_eq, hm.callPath_eq]

/-- What is not about writing is told as well by what came before. -/
theorem Tells.of_framed (hm : m.Framed env.activations) (hl : l.frames.Chain env.activations)
    (h : l.Tells settings env false t) : m.Tells settings env failed t := by
  obtain ⟨kind, arguments, causes, rfl, hk⟩ := h
  exact hm.tells hl fun he => Bool.noConfusion (hk he).2

theorem Tells.mono (h : m.Tells settings env failed t) (hf : failed = true → failed' = true) :
    m.Tells settings env failed' t := by
  obtain ⟨kind, arguments, causes, rfl, hk⟩ := h
  exact ⟨kind, arguments, causes, rfl, fun he => (hk he).imp_right hf⟩

end Machine

/-- What was added comes from compiling and from instructions, or an instance tells it where it is now. -/
abbrev Gained (settings : Settings) (bound : Instance) (start : Machine) (teller : Option Env) (m : Machine)
    (failed : Bool) : Workspace → Prop :=
  m.workspace.Adds fun i t => Told settings bound start i t ∨ ∃ env ∈ teller, m.Tells settings env failed t

theorem Gained.mono {teller : Option Env} {m : Machine} {failed failed' : Bool} {w : Workspace}
    (h : Gained settings bound start teller m failed w) (hf : failed = true → failed' = true) :
    Gained settings bound start teller m failed' w :=
  Workspace.Adds.mono h fun _ _ _ _ ht => ht.imp_right fun ⟨env, he, ht⟩ => ⟨env, he, ht.mono hf⟩

/-- What is told while an instance carries out an instruction from a state on. It writes to the sink that it
found there, or to text that is kept aside while that sink has failed or has not. -/
def telling (settings : Settings) (bound : Instance) (start : Machine) (env : Env) (m : Machine) : Facts where
  bare _ := True
  Outlet := Option Bool
  output o s _ := o.isSome → s.room = none
  frames f := f.Chain env.activations ∧ True
  workspace o s w := Gained settings bound start (some env) m (o.getD s.failed) w ∧
    (m.sink.failed = true → o.getD s.failed = true)

theorem telling_resolves {env : Env} {m : Machine} {action : StateM Workspace (Except Unresolved (Group × Program))}
    (h : Appends action) : (telling settings bound start env m).Resolves settings action := by
  intro o s w ⟨hw, hf⟩
  obtain ⟨_, _, _, told, htold, hrun⟩ := h w.slots w.reports
  rw [hrun]
  exact ⟨⟨hw.trans (.append rfl fun t ht i => .inl (.compiling (htold t ht))), hf⟩, fun _ _ _ => trivial⟩

theorem telling_kept {env : Env} {m : Machine} (hm : m.Framed env.activations) :
    (telling settings bound start env m).Kept settings env where
  here := .refl (fun _ => ⟨rfl, trivial⟩) _
  accept o l text sink hl ha := by
    refine ⟨hl.frames, hl.stack, fun ho => Sink.endless_accept? ha (hl.output ho), ?_⟩
    change Gained _ _ _ _ _ (o.getD sink.failed) _ ∧ (_ → o.getD sink.failed = true)
    rw [Sink.failed_accept? ha]
    exact hl.workspace
  fail o l text hl hfailed ha := by
    cases o with
    | some _ => exact (l.sink.accept?_of_endless (hl.output rfl) text ha).elim
    | none =>
      obtain ⟨hw, hf⟩ := hl.workspace
      have hbefore : m.sink.failed = false := by
        rw [← Bool.not_eq_true]
        exact fun h => Bool.noConfusion (hfailed.symm.trans (hf h))
      refine ⟨hl.frames, hl.stack, nofun, (hw.mono fun _ => rfl).trans (.deliver _ (.inr ⟨env, rfl, ?_⟩)), fun _ => rfl⟩
      exact hm.tells hl.frames.1 fun _ => ⟨hbefore, rfl⟩
  scratch o l hl :=
    ⟨some (o.getD l.sink.failed), ⟨hl.frames, hl.stack, fun _ => rfl, hl.workspace⟩,
      fun _ hk => ⟨hk.frames, hk.stack, hl.output, hk.workspace⟩⟩
  report o l kind arguments causes hk hl :=
    have ⟨hw, hf⟩ := hl.workspace
    ⟨hl.frames, hl.stack, hl.output,
      hw.trans (.deliver _ (.inr ⟨env, rfl, hm.tells hl.frames.1 fun h => (hk h).elim⟩)), hf⟩
  setEarly := (framing_kept .none settings env).setEarly
  record := (framing_kept .none settings env).record
  storeDefault f name v _ := (framing_kept .none settings env).storeDefault f name v (.refl Facts.plain_same v)
  lookup _ _ _ := Value.Alike.refl_option (fun _ => ⟨rfl, trivial⟩) _
  resolve _ := telling_resolves (Group.resolveFound_appends _ _)
  resolveInherited _ := telling_resolves (Group.resolveFound_appends _ _)
  enclosed _ _ := trivial

/-- An instance that is called comes between what its caller tells. -/
theorem telling_called {env : Env} {m l k : Machine} {o : Option Bool} (hm : m.Framed env.activations)
    (hl : (telling settings bound start env m).Holds o l) (hleads : l.sink.Leads k.sink)
    (hk : k.frames.Chain env.activations) (htold : Gained settings bound start (some env) l false k.workspace) :
    (telling settings bound start env m).Holds o k := by
  obtain ⟨hsofar, hfailed⟩ := hl.workspace
  have hstays : o.getD l.sink.failed = true → o.getD k.sink.failed = true := by
    cases o with
    | some _ => exact id
    | none => exact hleads.failed
  refine ⟨⟨hk, trivial⟩, .refl (fun _ => ⟨rfl, trivial⟩) _, fun ho => (hleads.endless (hl.output ho)).1, ?_,
    fun h => hstays (hfailed h)⟩
  refine (hsofar.mono hstays).trans (Workspace.Adds.mono htold fun _ _ _ _ ht => ?_)
  exact ht.imp_right fun ⟨e, he, ht⟩ => ⟨e, he, by cases he; exact ht.of_framed hm hl.frames.1⟩

/-- What an instruction tells is told when it has been carried out. -/
theorem Carries.told {env : Env} {line : Line Nat Nat} {m k : Machine} (h : Carries settings bound start env line m k)
    (hk : Gained settings bound start (some (env.atPlace line.span)) m k.sink.failed k.workspace) :
    m.workspace.Adds (Told settings bound start) k.workspace := by
  refine Workspace.Adds.mono hk fun i t hsince hwithin ht => ?_
  rcases ht with ht | ⟨e, he, ht⟩
  · exact ht
  · cases he
    exact .carrying h hsince hwithin ht

/-- An instruction tells only of the instance that carries it out. -/
theorem Machine.Framed.performs {env : Env} {m : Machine} (hm : m.Framed env.activations) (line : Line Nat Nat)
    (address : Nat) : ((perform settings (env.atPlace line.span) line.instr).run
      (m.changeFrames fun f => f.setNext env.scope address)).Within
        ((telling settings bound start (env.atPlace line.span) m).permit (env.atPlace line.span))
        fun _ l => (telling settings bound start (env.atPlace line.span) m).Holds none l := by
  have hkept : (telling settings bound start (env.atPlace line.span) m).Kept settings (env.atPlace line.span) :=
    telling_kept hm
  have hnext := ((framed_kept .none settings).jump _ env m address ⟨rfl, hm, trivial⟩).2.1
  have hstart : Gained settings bound start (some (env.atPlace line.span)) m m.sink.failed m.workspace := .refl _
  exact (hkept.perform (o := none) line.instr _ ⟨⟨hnext.live, trivial⟩, .refl (fun _ => ⟨rfl, trivial⟩) _, nofun,
    hstart, id⟩).mono fun _ _ h => h.2

/-! ## Renders -/

mutual

/-- An instance that is called tells what its instructions tell, and its caller tells of one that is refused. -/
theorem Invokes.told {caller : Option Env} {callee : Instance} {m k : Machine} {visits : List Visit} :
    Invokes settings caller callee m visits k → m.Framed (chain caller) →
      (∀ env l, (∀ e ∈ caller, m.frames.depth e.scope + 1 ≤ settings.depthLimit) →
        m.enter caller callee = (env, l) → Reached settings bound start (.running env l)) →
      Gained settings bound start caller m false k.workspace
  | .refused _ hk, hm, _ => hk ▸ .deliver _ (.inr ⟨_, rfl, hm.tells hm.live nofun⟩)
  | .entered shallow he hr, hm, hrun => by
      have htold := hr.told (hrun _ _ shallow he) (hm.entered he)
      cases he
      exact htold.mono fun _ _ _ _ => .inl

theorem Runs.told {env : Env} {m k : Machine} {addresses : List Nat} {visits : List Visit} :
    Runs settings env m addresses visits k → Reached settings bound start (.running env m) →
      m.Framed env.activations → m.workspace.Adds (Told settings bound start) k.workspace
  | .ends _, _, _ => .refl _
  | .fails here inside does, h, hm =>
      have hk := does.told (.fetch h here inside) (hm.performs _ _) hm
      Carries.told ⟨h, here ▸ inside, _, _, here ▸ does⟩ hk.workspace.1
  | .continues here inside does run, h, hm => by
      have hfetch := Reached.fetch h here inside
      have hk := does.told hfetch (hm.performs _ _) hm
      refine (Carries.told ⟨h, here ▸ inside, _, _, here ▸ does⟩ hk.workspace.1).trans
        (run.told (.next (does.arrives hfetch)) ?_)
      exact ((framed_kept .none settings).apply _ ⟨rfl, hm.of_frames hk.frames.1, trivial⟩).2.1

theorem Follows.told {env e : Env} {address : Nat} {course : Course (Option Flow)} {flow : Option Flow}
    {m k : Machine} {visits : List Visit} : Follows settings course flow visits k →
      Reached settings bound start (.carrying env address course) →
      course.Within ((telling settings bound start e m).permit e)
        (fun _ l => (telling settings bound start e m).Holds none l) →
      m.Framed e.activations → (telling settings bound start e m).Holds none k
  | .done, _, .done hk, _ => hk
  | .call hi hf, h, .call hC hl hrest, hm => by
      obtain ⟨he, -, o, hkept⟩ := hC
      have hl : (telling settings bound start e m).Holds o _ := hkept ▸ hl
      have hframed := hm.of_frames hl.frames.1
      have htold := hi.told (he ▸ hframed) fun _ _ shallow he => .call h (shallow _ rfl) he
      have hback := ((framed_kept .none settings).invokes hi ⟨rfl, he ▸ hframed, trivial, nofun⟩).1.live
      refine hf.told (.back h hi) (hrest _ ?_) hm
      subst he hkept
      exact telling_called hm hl hi.leads hback htold

end

/-- Whatever a render delivers comes from compiling, or is told by an instruction that is carried out then. -/
theorem Interpreter.told (i : Interpreter) (retain : Bool) (room : Option Nat) (bound : Instance) (w : Workspace) :
    w.Adds (Told ⟨i.depthLimit, bound.group, i.listener.getD bound.group.listener⟩ bound
      ⟨.empty retain, [], .output room, 0, w⟩) (i.final retain room bound w).workspace := by
  obtain ⟨visits, h, -⟩ := render_ends i retain room bound w
  have hstart : Machine.Framed ⟨.empty retain, [], .output room, 0, w⟩ (chain none) := ⟨.nil, .nil⟩
  refine Workspace.Adds.mono (h.told hstart fun _ _ _ he => .root he) fun i t _ _ ht => ?_
  exact ht.resolve_right nofun

end Stencil
