import Stencil.Proofs.Deliveries
import Stencil.Proofs.Framing
/-! Templates with a name are secluded. Two callers may have different attributes, defaults and callers of
their own; an instance that both call writes the same, and reports the same below them. -/

namespace Stencil

open Rendering

variable {as as' : List Activation}

/-! ## Looking up names -/

/-- Each instance of a chain belongs to an activation further out in it, if to any. -/
inductive Rooted : List Activation → Prop where
  | nil : Rooted []
  | cons {a as} (enclosing : ∀ s, a.bound.enclosing = some s → s ∈ as.map Activation.scope)
      (outer : Rooted as) : Rooted (a :: as)

theorem Kin.rooted (h : Kin as as') : Rooted as ∧ Rooted as' := by
  induction h with
  | nil => exact ⟨.nil, .nil⟩
  | cons bound _ _ _ ih =>
    have he := bound.twin.enclosing
    refine ⟨.cons (fun s hs => ?_) ih.1, .cons (fun s hs => ?_) ih.2⟩
    · rw [hs] at he
      generalize Instance.enclosing _ = e at he
      cases he with
      | some hm => exact (mem_world hm).1
    · rw [hs] at he
      generalize Instance.enclosing _ = e at he
      cases he with
      | some hm => exact (mem_world hm).2

/-- Looking up a name does not go beyond a chain whose instances belong to it. -/
theorem Rooted.lookup_append (h : Rooted as) (frames : Frames) (name : String) (wanted : Option Nat)
    (outer : List Activation) (hne : as ≠ []) (hw : ∀ s, wanted = some s → s ∈ as.map Activation.scope) :
    lookupFrom frames name wanted (as ++ outer) = lookupFrom frames name wanted as := by
  induction h generalizing wanted with
  | nil => exact absurd rfl hne
  | @cons a as enclosing _ ih =>
    have hrest {s : Nat} (hs : s ∈ as.map Activation.scope) :
        lookupFrom frames name (some s) (as ++ outer) = lookupFrom frames name (some s) as :=
      ih (some s) (fun hn => by rw [hn] at hs; cases hs) fun t ht => by cases ht; exact hs
    rw [List.cons_append]
    cases hhere : wanted.all (· == a.scope) with
    | true =>
      rw [lookupFrom_here frames name hhere, lookupFrom_here frames name hhere]
      cases he : a.bound.enclosing with
      | none => rfl
      | some s => rw [Option.bind_some, Option.bind_some, hrest (enclosing s he)]
    | false =>
      cases wanted with
      | none => cases hhere
      | some s =>
        -- what is looked for is inside, and it is not this activation
        have hs : s ≠ a.scope := by simpa using hhere
        rw [lookupFrom_past frames name hs, lookupFrom_past frames name hs]
        exact hrest ((List.mem_cons.mp (hw s rfl)).resolve_left hs)

/-! ## What is told -/

/-- A diagnostic below a chain of templates. Those of compiling tell of no chain. -/
def Diagnostic.under (path : List String) (d : Diagnostic) : Diagnostic :=
  match d.phase with
  | .compile => d
  | .render => { d with callPath := path ++ d.callPath }

theorem Diagnostic.under_under (path inner : List String) (d : Diagnostic) :
    (d.under inner).under path = d.under (path ++ inner) := by
  cases h : d.phase with
  | compile => simp only [under, h]
  | render => simp only [under, h, List.append_assoc]

/-- A problem of an instance, told where there is no chain. -/
def Env.problem (env : Env) (kind : Kind) (arguments causes : List String) : Diagnostic :=
  { Diagnostic.rendering kind arguments with
    template := some env.program.name
    location := env.place.map fun s => .inSource env.program.source s.offset s.length
    causes }

theorem Machine.diagnostic_eq (m : Machine) (env : Env) (kind : Kind) (arguments causes : List String) :
    m.diagnostic env kind arguments causes =
      (env.problem kind arguments causes).under (m.frames.callPath env.scope) := by
  change _ = { env.problem kind arguments causes with callPath := m.frames.callPath env.scope ++ [] }
  rw [List.append_nil]
  rfl

def Deliveries.under (path : List String) (told : Deliveries) : Deliveries :=
  told.map fun t => (t.1, t.2.under path)

theorem Deliveries.under_empty (path : List String) : Deliveries.under path #[] = #[] := Array.map_empty

theorem Deliveries.under_append (path : List String) (told more : Deliveries) :
    Deliveries.under path (told ++ more) = Deliveries.under path told ++ Deliveries.under path more :=
  Array.map_append

theorem Deliveries.under_compile (path : List String) {told : Deliveries}
    (h : ∀ t ∈ told, t.2.OfCompiling) : Deliveries.under path told = told := by
  refine (Array.map_congr_left fun t ht => ?_).trans (Array.map_id' told)
  obtain ⟨c, hc⟩ := h t ht
  rw [Diagnostic.under, hc.phase]

/-! ## States apart -/

/-- Where an instance is called: the activations that there are, and what was delivered. -/
structure Site where
  callers : List Activation
  delivered : Deliveries

def Site.path (p : Site) : List String := (p.callers.map fun a => a.bound.name).reverse

/-- A caller at the end of a chain below a site. -/
structure Site.Calls (p : Site) (as : List Activation) (caller : Option Env) : Prop where
  chain : chain caller = as ++ p.callers
  ordered : (as ++ p.callers).Pairwise fun a b => b.scope < a.scope

theorem Site.Calls.callPath_eq {p : Site} {env : Env} (h : p.Calls as (some env)) {f : Frames}
    (hf : f.Chain (as ++ p.callers)) :
    f.callPath env.scope = ((as ++ p.callers).map fun a => a.bound.name).reverse := by
  obtain ⟨hc, ho⟩ := h
  rw [← hc] at hf ho ⊢
  exact hf.callPath_eq (length_le_of_ordered ho)

theorem Site.Calls.lt {p : Site} {a : Activation} {caller : Option Env} (h : p.Calls (a :: as) caller) :
    ∀ b ∈ as ++ p.callers, b.scope < a.scope := (List.pairwise_cons.mp h.ordered).1

/-- Two sinks that took the same texts behind others, and take the same further ones. -/
structure Sink.Along (base base' s s' : Sink) : Prop where
  texts : ∃ texts, s.pieces = texts ++ base.pieces ∧ s'.pieces = texts ++ base'.pieces
  failed : s.failed = s'.failed
  room : s.room = s'.room

theorem Sink.Along.accept {base base' s s' : Sink} (h : base.Along base' s s') (text : String) :
    Option.Rel (base.Along base') (s.accept? text) (s'.accept? text) := by
  obtain ⟨texts, ht, ht'⟩ := h.texts
  have htexts : ∃ texts, text :: s.pieces = texts ++ base.pieces ∧ text :: s'.pieces = texts ++ base'.pieces :=
    ⟨text :: texts, congrArg (text :: ·) ht, congrArg (text :: ·) ht'⟩
  unfold accept?
  rw [← h.room]
  split
  · exact .none
  · exact .some ⟨htexts, h.failed, rfl⟩

variable {p p' : Site}

/-- Two machines that run the same templates below two sites. Inside, templates see the same; nothing is
known of the sites themselves. -/
structure Secluded (p p' : Site) (as as' : List Activation) (base : Sink × Sink) (m m' : Machine) : Prop where
  live : m.frames.Chain (as ++ p.callers)
  live' : m'.frames.Chain (as' ++ p'.callers)
  frames : m.frames.Alike m'.frames as as'
  sink : base.1.Along base.2 m.sink m'.sink
  slots : m.workspace.slots = m'.workspace.slots
  reports : m.workspace.reports = m'.workspace.reports
  told : ∃ told : Deliveries, m.workspace.delivered = p.delivered ++ told.under p.path ∧
    m'.workspace.delivered = p'.delivered ++ told.under p'.path

/-- Two activations below the sites call instances that correspond. -/
def secludedAccord (p p' : Site) (as as' : List Activation) : Accord := fun env bound env' bound' kept =>
  p.Calls as (some env) ∧ p'.Calls as' (some env') ∧ env.place = env'.place ∧
    bound.Alike (Instance.Twin (world as as')) bound' ∧ ∃ base, kept = Secluded p p' as as' base

namespace Secluded

variable {base : Sink × Sink} {m m' : Machine}

theorem of_frames (h : Secluded p p' as as' base m m') {f f' : Frames} (hf : f.Chain (as ++ p.callers))
    (hf' : f'.Chain (as' ++ p'.callers)) (ha : f.Alike f' as as') :
    Secluded p p' as as' base { m with frames := f } { m' with frames := f' } :=
  ⟨hf, hf', ha, h.sink, h.slots, h.reports, h.told⟩

/-- The same problem is reported below the call paths of the sites. -/
theorem report (h : Secluded p p' as as' base m m') (hk : Kin as as') {env env' : Env}
    (hc : p.Calls as (some env)) (hc' : p'.Calls as' (some env')) (hp : env.program = env'.program)
    (settings : Settings) (place : Option Span) (kind : Kind) (arguments causes : List String) :
    Secluded p p' as as' base (m.report settings (env.atPlace place) kind arguments causes)
      (m'.report settings (env'.atPlace place) kind arguments causes) := by
  obtain ⟨told, ht, ht'⟩ := h.told
  let d : Diagnostic :=
    ((env.atPlace place).problem kind arguments causes).under (as.map fun a => a.bound.name).reverse
  have hd : m.diagnostic (env.atPlace place) kind arguments causes = d.under p.path := by
    rw [m.diagnostic_eq, Diagnostic.under_under, Site.path, ← List.reverse_append, ← List.map_append]
    exact congrArg (Diagnostic.under · _) (hc.callPath_eq h.live)
  have hproblem : (env.atPlace place).problem kind arguments causes =
      (env'.atPlace place).problem kind arguments causes := by
    have hprogram : (env.atPlace place).program = (env'.atPlace place).program := hp
    rw [Env.problem, Env.problem, hprogram]
    rfl
  have hd' : m'.diagnostic (env'.atPlace place) kind arguments causes = d.under p'.path := by
    rw [m'.diagnostic_eq, Diagnostic.under_under, Site.path, hk.names_eq, hproblem, ← List.reverse_append,
      ← List.map_append]
    exact congrArg (Diagnostic.under · _) (hc'.callPath_eq h.live')
  refine ⟨h.live, h.live', h.frames, h.sink, h.slots, h.reports, told.push (settings.listener, d), ?_, ?_⟩
  · simp only [Machine.report, Workspace.deliver, hd, ht, Deliveries.under, Array.map_push, Array.append_push]
  · simp only [Machine.report, Workspace.deliver, hd', ht', Deliveries.under, Array.map_push, Array.append_push]

theorem enter {caller caller' : Option Env} (h : Secluded p p' as as' base m m')
    (hc : p.Calls as caller) (hc' : p'.Calls as' caller') (bound bound' : Instance) :
    Secluded p p' (⟨bound, m.frames.size⟩ :: as) (⟨bound', m'.frames.size⟩ :: as') base
      (m.enter caller bound).2 (m'.enter caller' bound').2 where
  live := by
    have hf := h.live.enter bound
    rw [← hc.chain, ← head?_chain, hc.chain] at hf
    exact hf
  live' := by
    have hf := h.live'.enter bound'
    rw [← hc'.chain, ← head?_chain, hc'.chain] at hf
    exact hf
  frames := h.frames.enter (List.forall_mem_append.mp h.live.lt_size).1
    (List.forall_mem_append.mp h.live'.lt_size).1 _ _ bound bound'
  sink := h.sink
  slots := h.slots
  reports := h.reports
  told := h.told

theorem leave {env env' : Env} (h : Secluded p p' (env.here :: as) (env'.here :: as') base m m')
    (hc : p.Calls (env.here :: as) (some env)) (hc' : p'.Calls (env'.here :: as') (some env'))
    (start start' height height' : Nat) :
    Secluded p p' as as' base (m.leave env start height) (m'.leave env' start' height') where
  live := h.live.exit hc.lt _
  live' := h.live'.exit hc'.lt _
  frames := by
    have hlt := (List.forall_mem_append.mp hc.lt).1
    have hlt' := (List.forall_mem_append.mp hc'.lt).1
    cases h.frames with
    | cons _ _ _ outer =>
      refine outer.congr (fun b hb => ?_) fun b hb => ?_
      · exact (Frames.face?_exit _ (hlt b hb)).trans (m.frames.face?_recordCompletion _ _)
      · exact (Frames.face?_exit _ (hlt' b hb)).trans (m'.frames.face?_recordCompletion _ _)
  sink := h.sink
  slots := h.slots
  reports := h.reports
  told := h.told

theorem change {a a' : Activation} (h : Secluded p p' (a :: as) (a' :: as') base m m')
    (hk : Kin (a :: as) (a' :: as')) (c d : Frame → Frame) (hc : ∀ frame, (c frame).face = c frame.face)
    (hd : ∀ frame, (d frame).face = d frame.face)
    (hof : ∀ frame, (c frame).template = frame.template ∧ (c frame).parent = frame.parent)
    (hof' : ∀ frame, (d frame).template = frame.template ∧ (d frame).parent = frame.parent)
    (hkeep : ∀ frame frame',
      Entries.Alike (Instance.Twin (world (a :: as) (a' :: as'))) frame.defaults frame'.defaults →
      Entries.Alike (Instance.Twin (world (a :: as) (a' :: as'))) (c frame).defaults (d frame').defaults) :
    Secluded p p' (a :: as) (a' :: as') base (m.changeFrames (·.change a.scope c))
      (m'.changeFrames (·.change a'.scope d)) :=
  h.of_frames (h.live.change c (fun frame => (hof frame).1) (fun frame => (hof frame).2) _)
    (h.live'.change d (fun frame => (hof' frame).1) (fun frame => (hof' frame).2) _)
    (h.frames.change hk c d hc hd hkeep)

theorem unseen (h : Secluded p p' as as' base m m') {f f' : Frames}
    (hf : ∀ scope, f.face? scope = m.frames.face? scope)
    (hf' : ∀ scope, f'.face? scope = m'.frames.face? scope) :
    Secluded p p' as as' base { m with frames := f } { m' with frames := f' } :=
  h.of_frames (h.live.congr fun _ _ => hf _) (h.live'.congr fun _ _ => hf' _)
    (h.frames.congr (fun _ _ => hf _) fun _ _ => hf' _)

/-- Both write the same, or both fail to and report it. -/
theorem writes {A : Accord} (hk : Kin as as') {env env' : Env} (hc : p.Calls as (some env))
    (hc' : p'.Calls as' (some env')) (hp : env.program = env'.program) (settings : Settings)
    (place : Option Span) (s : String) : Matched A (Secluded p p' as as' base) (fun _ _ => True)
      (writeText settings (env.atPlace place) s) (writeText settings (env'.atPlace place) s) := by
  intro m m' h
  have hwith {sink sink' : Sink} (cursor cursor' : Nat) (hs : base.1.Along base.2 sink sink') :
      Secluded p p' as as' base { m with sink, cursor } { m' with sink := sink', cursor := cursor' } :=
    ⟨h.live, h.live', h.frames, hs, h.slots, h.reports, h.told⟩
  rw [writeText_apply, writeText_apply, ← h.sink.failed]
  split
  · exact .done ⟨trivial, h⟩ rfl
  · have hs := h.sink.accept s
    generalize m.sink.accept? s = o, m'.sink.accept? s = o' at hs
    cases hs with
    | some hs => exact .done ⟨trivial, hwith _ _ hs⟩ rfl
    | none =>
      have hfailed : base.1.Along base.2 m.sink.refuse m'.sink.refuse := ⟨h.sink.texts, rfl, h.sink.room⟩
      exact .done ⟨trivial, (hwith m.cursor m'.cursor hfailed).report hk hc hc' hp settings place _ _ _⟩ rfl

theorem captures {A : Accord} {x y : Rendering Unit}
    (h : ∀ base, Matched A (Secluded p p' as as' base) (fun _ _ => True) x y) (base : Sink × Sink) :
    Matched A (Secluded p p' as as' base) Eq (capture x) (capture y) := by
  intro m m' hm
  rw [capture_apply, capture_apply]
  have hstart : Secluded p p' as as' (.scratch m.cursor, .scratch m'.cursor)
      { m with sink := .scratch m.cursor } { m' with sink := .scratch m'.cursor } :=
    ⟨hm.live, hm.live', hm.frames, ⟨⟨[], rfl, rfl⟩, rfl, rfl⟩, hm.slots, hm.reports, hm.told⟩
  refine (h _ _ _ hstart).bind fun _ _ k k' ⟨_, hk⟩ => .done ⟨?_, ?_⟩ rfl
  · obtain ⟨texts, ht, ht'⟩ := hk.sink.texts
    rw [Sink.text, Sink.text, ht, ht']
    rfl
  · exact ⟨hk.live, hk.live', hk.frames, hm.sink, hk.slots, hk.reports, hk.told⟩

/-- What the slots decide comes to the same in both. -/
theorem inWorkspace {A : Accord} {α : Type} {action : StateM Workspace α} (ha : Appends action) :
    Matched A (Secluded p p' as as' base) Eq (Rendering.inWorkspace action) (Rendering.inWorkspace action) := by
  refine .modifyGet (fun _ => rfl) fun ⟨f, stack, sink, cursor, slots, reports, delivered⟩
    ⟨f', stack', sink', cursor', slots', reports', delivered'⟩ hm => ?_
  obtain ⟨told, ht, ht'⟩ := hm.told
  cases hm.slots
  cases hm.reports
  obtain ⟨a, slots, reports, more, hmore, hrun⟩ := ha slots reports
  dsimp only
  rw [hrun, hrun]
  refine ⟨rfl, hm.live, hm.live', hm.frames, hm.sink, rfl, rfl, told ++ more, ?_, ?_⟩
  · rw [Deliveries.under_append, Deliveries.under_compile _ hmore, ← Array.append_assoc, ← ht]
  · rw [Deliveries.under_append, Deliveries.under_compile _ hmore, ← Array.append_assoc, ← ht']

end Secluded

/-- An instance that runs below two sites. -/
def secludedBond (settings : Settings) (env env' : Env) (hk : Kin (env.here :: as) (env'.here :: as'))
    (hc : p.Calls (env.here :: as) (some env)) (hc' : p'.Calls (env'.here :: as') (some env'))
    (hp : env.place = env'.place) : Bond (secludedAccord p p' (env.here :: as) (env'.here :: as')) :=
  have he : env.activations = env.here :: as ++ p.callers := hc.chain
  have he' : env'.activations = env'.here :: as' ++ p'.callers := hc'.chain
  { settings
    env
    env'
    bare := Instance.Twin (world (env.here :: as) (env'.here :: as'))
    Outlet := Sink × Sink
    state := Secluded p p' (env.here :: as) (env'.here :: as')
    allowed _ := True
    visited _ := True
    found _ _ := True
    inner _ := True
    abreast := ⟨hp, hk.here.twin.native⟩
    here := hk.here
    program_eq _ _ h := h.program
    usual := .all
    placed := trivial
    writes _ place s _ := Secluded.writes hk hc hc' hk.here.twin.program settings place s
    report _ place _ _ kind arguments causes _ _ h :=
      h.report hk hc hc' hk.here.twin.program settings place kind arguments causes
    keepDefault _ _ _ name v v' hv h :=
      h.change hk (fun frame => { frame with defaults := Dict.insert name v frame.defaults })
        (fun frame => { frame with defaults := Dict.insert name v' frame.defaults }) (fun _ => rfl) (fun _ => rfl)
        (fun _ => ⟨rfl, rfl⟩) (fun _ => ⟨rfl, rfl⟩) fun _ _ hd => hd.insert name hv
    lookup _ m m' name h := by
      rw [he, he', hk.rooted.1.lookup_append m.frames name none p.callers (List.cons_ne_nil _ _) nofun,
        hk.rooted.2.lookup_append m'.frames name none p'.callers (List.cons_ne_nil _ _) nofun]
      exact h.frames.lookup hk name .none
    resolve callee _ := by
      have hn : env.here.bound.native = env'.here.bound.native := hk.here.twin.native
      rw [Rendering.resolve_eq, Rendering.resolve_eq, ← hn]
      exact (Secluded.inWorkspace (Group.resolveFound_appends _ _)).mono fun _ _ hr => ⟨hr, trivial⟩
    fresh _ _ _ _ := ⟨rfl, rfl, rfl, .none⟩
    enclosed _ _ := ⟨rfl, hk.here.twin.native, rfl, .some List.mem_cons_self⟩
    -- positions and early frames are only recorded, and nobody reads what is recorded
    near _ _ := True
    early _ _ := True
    captures := Secluded.captures
    positions _ _ _ _ := trivial
    early_true := trivial
    isEarly _ _ _ _ := trivial
    setEarly _ _ _ b b' _ h :=
      h.change hk (fun frame => { frame with early := b }) (fun frame => { frame with early := b' }) (fun _ => rfl)
        (fun _ => rfl) (fun _ => ⟨rfl, rfl⟩) (fun _ => ⟨rfl, rfl⟩) fun _ _ hd => hd
    record _ m m' output output' source _ _ h := by
      have hface (f : Frames) (env : Env) (w : Writing) (scope : Nat) :
          (if f.isEarly env.scope then f else f.recordWriting w).face? scope = f.face? scope := by
        split
        · rfl
        · exact f.face?_recordWriting w scope
      exact h.unseen (hface m.frames env _) (hface m'.frames env' _)
    call base _ _ _ _ h := ⟨⟨hc.chain, hc.ordered⟩, ⟨hc'.chain, hc'.ordered⟩, rfl, h, base, rfl⟩ }

/-- Evaluating an instance below two sites. Callers that are refused have to be inside. -/
theorem evaluate_secluded (r : Reading) (settings : Settings) (n : Nat) {caller caller' : Option Env}
    {bound bound' : Instance} {base : Sink × Sink} {m m' : Machine} (hk : Kin as as')
    (hc : p.Calls as caller) (hc' : p'.Calls as' caller')
    (hz : n = 0 → as ≠ [] ∧ caller.bind Env.place = caller'.bind Env.place)
    (hb : bound.Alike (Instance.Twin (world as as')) bound') (h : Secluded p p' as as' base m m') :
    (evaluate r settings n caller bound m).Ends (fun _ _ => Secluded p p' as as' base)
      (evaluate r settings n caller' bound' m') := by
  -- the sites stay; the chains below them grow, and texts kept aside have bases of their own
  induction n generalizing caller caller' bound bound' as as' base m m' with
  | zero =>
    obtain ⟨hne, hp⟩ := hz rfl
    cases hk with
    | nil => exact absurd rfl hne
    | cons here lt lt' outer =>
      cases caller with
      | none => cases hc.chain
      | some env =>
        cases caller' with
        | none => cases hc'.chain
        | some env' =>
          obtain ⟨here', callers', place'⟩ := env'
          cases hp
          have hprogram : env.program = here'.bound.program := by
            cases (List.cons.inj hc.chain).1
            cases (List.cons.inj hc'.chain).1
            exact here.twin.program
          have hr := h.report (.cons here lt lt' outer) hc hc' hprogram settings env.place .recursionLimit
            [toString settings.depthLimit, bound.name] []
          have hn : bound.name = bound'.name := congrArg (fun p : Program => p.name) hb.twin.program
          refine ⟨(), (), _, _, rfl, rfl, ?_⟩
          rw [← hn]
          exact hr
  | succ n ih =>
    have hk' : Kin (⟨bound, m.frames.size⟩ :: as) (⟨bound', m'.frames.size⟩ :: as') :=
      .cons hb (List.forall_mem_append.mp h.live.lt_size).1 (List.forall_mem_append.mp h.live'.lt_size).1 hk
    have hin : p.Calls (⟨bound, m.frames.size⟩ :: as) (some (m.enter caller bound).1) :=
      ⟨congrArg (_ :: ·) hc.chain, .cons h.live.lt_size hc.ordered⟩
    have hin' : p'.Calls (⟨bound', m'.frames.size⟩ :: as') (some (m'.enter caller' bound').1) :=
      ⟨congrArg (_ :: ·) hc'.chain, .cons h.live'.lt_size hc'.ordered⟩
    have hbody := runTree_matched (r := r)
      (B := secludedBond settings (m.enter caller bound).1 (m'.enter caller' bound').1 hk' hin hin' rfl)
      (.inl ⟨fun _ => trivial, fun _ _ => trivial, fun _ => trivial⟩) base _ _ (h.enter hc hc' bound bound')
    have hrun (env : Env) (i : Instance) (env' : Env) (i' : Instance) (kept : Machine → Machine → Prop)
        (hacc : secludedAccord p p' (⟨bound, m.frames.size⟩ :: as) (⟨bound', m'.frames.size⟩ :: as')
          env i env' i' kept) (k k' : Machine) (hm : kept k k') : (evaluate r settings n (some env) i k).Ends
          (fun _ _ => kept) (evaluate r settings n (some env') i' k') := by
      obtain ⟨hc, hc', hp, hi, base, rfl⟩ := hacc
      exact ih hk' hc hc' (fun _ => ⟨List.cons_ne_nil _ _, hp⟩) hi hm
    obtain ⟨_, _, k, k', hdone, hdone', -, hends⟩ := hbody.handle hrun
    exact ⟨(), (), _, _, evaluate_succ hdone, evaluate_succ hdone', hends.leave hin hin' _ _ _ _⟩

/-! ## Calls -/

def Machine.pathOf (m : Machine) (caller : Option Env) : List String :=
  (caller.map fun env => m.frames.callPath env.scope).getD []

theorem Machine.Framed.pathOf_eq {m : Machine} {caller : Option Env} (h : m.Framed (chain caller)) :
    m.pathOf caller = ((chain caller).map fun a => a.bound.name).reverse := by
  cases caller with
  | none => rfl
  | some env => exact h.callPath_eq

/-- What calling an instance comes to: it writes a text, and tells of problems below the path of its caller. -/
structure Instance.Says (bound : Instance) (settings : Settings) (n : Nat) (caller : Option Env) (m : Machine)
    (text : String) (told : Deliveries) (k : Machine) : Prop where
  done : invoke settings n caller bound m = .done () k
  text : k.sink.text = m.sink.text ++ text
  told : k.workspace.delivered = m.workspace.delivered ++ told.under (m.pathOf caller)

/-- Two states in which a call meets the same writer and the same compiled templates. -/
structure Machine.Peer (m m' : Machine) : Prop where
  failed : m.sink.failed = m'.sink.failed
  room : m.sink.room = m'.sink.room
  slots : m.workspace.slots = m'.workspace.slots
  reports : m.workspace.reports = m'.workspace.reports

namespace Machine.Peer

variable {m k l : Machine}

theorem symm (h : m.Peer k) : k.Peer m := ⟨h.failed.symm, h.room.symm, h.slots.symm, h.reports.symm⟩

theorem trans (h : m.Peer k) (hk : k.Peer l) : m.Peer l :=
  ⟨h.failed.trans hk.failed, h.room.trans hk.room, h.slots.trans hk.slots, h.reports.trans hk.reports⟩

end Machine.Peer

/-- What a caller tells of an instance that would go too deep. -/
def refusal (settings : Settings) (caller : Option Env) (bound : Instance) : Deliveries :=
  match caller with
  | none => #[]
  | some env => #[(settings.listener, env.problem .recursionLimit [toString settings.depthLimit, bound.name] [])]

/-- A call that goes too deep changes nothing but that its caller tells of it. -/
theorem Instance.says_refusal (bound : Instance) (settings : Settings) (caller : Option Env) (m : Machine) :
    ∃ k, bound.Says settings 0 caller m "" (refusal settings caller bound) k ∧ m.Peer k := by
  cases caller with
  | none =>
    refine ⟨m, ⟨rfl, String.append_empty.symm, ?_⟩, rfl, rfl, rfl, rfl⟩
    rw [refusal, Deliveries.under_empty, Array.append_empty]
  | some env =>
    refine ⟨_, ⟨rfl, String.append_empty.symm, ?_⟩, rfl, rfl, rfl, rfl⟩
    change m.workspace.delivered.push (settings.listener, m.diagnostic _ _ _ _) = _
    rw [m.diagnostic_eq, Array.push_eq_append, refusal, Deliveries.under, Array.map_singleton]
    rfl

theorem Instance.Says.refused_templates {settings : Settings} {caller : Option Env} {bound : Instance}
    {m k : Machine} {text : String} {told : Deliveries} (h : bound.Says settings 0 caller m text told k) :
    told.map (fun t => t.2.template) = (refusal settings caller bound).map fun t => t.2.template := by
  have hunder (path : List String) (told : Deliveries) :
      (told.under path).map (fun t => t.2.template) = told.map fun t => t.2.template := by
    rw [Deliveries.under, Array.map_map]
    refine Array.map_congr_left fun t _ => ?_
    change (t.2.under path).template = _
    unfold Diagnostic.under
    split <;> rfl
  obtain ⟨l, hl, -⟩ := bound.says_refusal settings caller m
  cases h.done.symm.trans hl.done
  rw [← hunder (m.pathOf caller), (Array.append_right_inj _).mp (h.told.symm.trans hl.told), hunder]

theorem Instance.Says.of_evaluate {r : Reading} {settings : Settings} {n : Nat} {caller : Option Env}
    {bound : Instance} {m k : Machine} {told : Deliveries} {texts : List String} (hm : m.Framed (chain caller))
    (hk : evaluate r settings n caller bound m = .done () k) (ht : k.sink.pieces = texts ++ m.sink.pieces)
    (hd : k.workspace.delivered =
      m.workspace.delivered ++ told.under ((chain caller).map fun a => a.bound.name).reverse) :
    ∃ l, bound.Says settings n caller m (String.join texts.reverse) told l ∧ k.Peer l := by
  obtain ⟨_, _, l, k', hl, hk', hleft⟩ := invoke_ends r settings n caller bound (m := m) rfl
  cases hk.symm.trans hk'
  obtain ⟨-, hs, -, hw⟩ := Machine.still_eq_iff.mp hleft.still
  refine ⟨l, ⟨hl, ?_, ?_⟩, ?_⟩
  · rw [hs, Sink.text, ht, List.reverse_append, String.join_append]
    rfl
  · rw [hw, hd, hm.pathOf_eq]
  · exact ⟨by rw [hs], by rw [hs], by rw [hw], by rw [hw]⟩

/-- Instances that a host built are secluded from their callers. Called at the same depth from any two states
with the same writer and the same compiled templates, an instance writes the same text and tells of the same
problems. Only that it would go too deep is told by each caller itself. The frames of the callers have to be
there, as they are in renders (`Reached.framed`). -/
theorem named_secluded {bound : Instance} (hb : bound.HostBuilt) (settings : Settings) (n : Nat)
    (caller caller' : Option Env) {m m' : Machine} (hm : m.Framed (chain caller))
    (hm' : m'.Framed (chain caller')) (h : m.Peer m') :
    ∃ k k' text told told', bound.Says settings n caller m text told k ∧
      bound.Says settings n caller' m' text told' k' ∧ k.Peer k' ∧ (n ≠ 0 → told = told') ∧
      (n = 0 → text = "" ∧ told = refusal settings caller bound ∧ told' = refusal settings caller' bound) := by
  obtain ⟨r⟩ := Reading.nonempty
  cases n with
  | zero =>
    -- the instance does not run at all
    obtain ⟨k, hk, hpeer⟩ := bound.says_refusal settings caller m
    obtain ⟨k', hk', hpeer'⟩ := bound.says_refusal settings caller' m'
    exact ⟨k, k', "", _, _, hk, hk', hpeer.symm.trans (h.trans hpeer'), fun hn => absurd rfl hn,
      fun _ => ⟨rfl, rfl, rfl⟩⟩
  | succ n =>
    have hstart : Secluded ⟨chain caller, m.workspace.delivered⟩ ⟨chain caller', m'.workspace.delivered⟩ [] []
        (m.sink, m'.sink) m m' := by
      refine ⟨hm.live, hm'.live, .nil, ⟨⟨[], rfl, rfl⟩, h.failed, h.room⟩, h.slots, h.reports, #[], ?_, ?_⟩
      · rw [Deliveries.under_empty, Array.append_empty]
      · rw [Deliveries.under_empty, Array.append_empty]
    have hc : Site.Calls ⟨chain caller, m.workspace.delivered⟩ [] caller := ⟨rfl, hm.ordered⟩
    have hc' : Site.Calls ⟨chain caller', m'.workspace.delivered⟩ [] caller' := ⟨rfl, hm'.ordered⟩
    obtain ⟨_, _, k, k', hk, hk', hends⟩ := evaluate_secluded r settings (n + 1) .nil hc hc' nofun (hb.twin _) hstart
    obtain ⟨texts, ht, ht'⟩ := hends.sink.texts
    obtain ⟨told, hd, hd'⟩ := hends.told
    obtain ⟨l, hl, hpeer⟩ := Instance.Says.of_evaluate hm hk ht hd
    obtain ⟨l', hl', hpeer'⟩ := Instance.Says.of_evaluate hm' hk' ht' hd'
    have hboth : k.Peer k' := ⟨hends.sink.failed, hends.sink.room, hends.slots, hends.reports⟩
    exact ⟨l, l', _, told, told, hl, hl', hpeer.symm.trans (hboth.trans hpeer'), fun _ => rfl, nofun⟩

theorem named_secluded_greeting :
    let directory : Directory := ⟨fun _ => none, fun _ => none, []⟩
    ∃ p, Program.compile directory "greeting" .any "Hello <it>!" = .ok p ∧
      let settings : Settings := ⟨100, .empty "main", .log⟩
      let start : Machine := ⟨.empty false, [], .output none, 0, .empty⟩
      let bound := Instance.ofProgram settings.group settings.group p none
      let (env, m) := start.enter none (bound.bind "it" (.text "one"))
      let (env', m') := start.enter none (bound.bind "it" (.list [.text "two"]))
      bound.HostBuilt ∧ m.Framed (chain (some env)) ∧ m'.Framed (chain (some env')) ∧ m.Peer m' ∧
        ∃ k k' text told, bound.Says settings 100 (some env) m text told k ∧
          bound.Says settings 100 (some env') m' text told k' ∧ k.Peer k' := by
  intro directory
  have hok : (Program.compile directory "greeting" .any "Hello <it>!").isOk = true := by decide +kernel
  obtain ⟨p, hp, -⟩ := Program.of_isOk hok
  refine ⟨p, hp, ?_⟩
  intro settings start bound
  have hb : bound.HostBuilt := .mk ⟨rfl, rfl⟩ .nil
  have hstart : start.Framed (chain none) := ⟨.nil, .nil⟩
  have hm := hstart.enter (bound.bind "it" (.text "one"))
  have hm' := hstart.enter (bound.bind "it" (.list [.text "two"]))
  refine ⟨hb, hm, hm', ⟨rfl, rfl, rfl, rfl⟩, ?_⟩
  obtain ⟨k, k', text, told, _, hk, hk', hpeer, htold, -⟩ :=
    named_secluded hb settings 100 (some _) (some _) hm hm' ⟨rfl, rfl, rfl, rfl⟩
  cases htold (by decide)
  exact ⟨k, k', text, told, hk, hk', hpeer⟩

/-- Two templates that call the same one where it would go too deep tell of it differently. -/
theorem refusal_told_by_caller :
    let directory : Directory := ⟨fun name => if name = "t" then some .any else none, fun _ => none, ["t"]⟩
    ∃ a b t, Program.compile directory "a" .any "<t()>" = .ok a ∧
      Program.compile directory "b" .any "x<t()>" = .ok b ∧ Program.compile directory "t" .any "T" = .ok t ∧
      let settings : Settings := ⟨0, .empty "main", .log⟩
      let start : Machine := ⟨.empty false, [], .output none, 0, .empty⟩
      let instanceOf (p : Program) := Instance.ofProgram settings.group settings.group p none
      let (env, m) := start.enter none (instanceOf a)
      let (env', m') := start.enter none (instanceOf b)
      (instanceOf t).HostBuilt ∧ m.Framed (chain (some env)) ∧ m'.Framed (chain (some env')) ∧ m.Peer m' ∧
        ¬ ∃ k k' text told, (instanceOf t).Says settings 0 (some (env.atPlace (some ⟨0, 5⟩))) m text told k ∧
          (instanceOf t).Says settings 0 (some (env'.atPlace (some ⟨1, 5⟩))) m' text told k' := by
  intro directory
  have hok : (Program.compile directory "a" .any "<t()>").isOk = true ∧
      (Program.compile directory "b" .any "x<t()>").isOk = true ∧
      (Program.compile directory "t" .any "T").isOk = true := by decide +kernel
  obtain ⟨a, ha, hna⟩ := Program.of_isOk hok.1
  obtain ⟨b, hb, hnb⟩ := Program.of_isOk hok.2.1
  obtain ⟨t, ht, -⟩ := Program.of_isOk hok.2.2
  refine ⟨a, b, t, ha, hb, ht, ?_⟩
  intro settings start instanceOf
  have hstart : start.Framed (chain none) := ⟨.nil, .nil⟩
  refine ⟨.mk ⟨rfl, rfl⟩ .nil, hstart.enter _, hstart.enter _, ⟨rfl, rfl, rfl, rfl⟩, ?_⟩
  rintro ⟨k, k', text, told, h, h'⟩
  have htemplates := h.refused_templates.symm.trans h'.refused_templates
  simp only [refusal, Array.map_singleton] at htemplates
  have hnames : a.name = b.name := Option.some.inj (Array.singleton_inj.mp htemplates)
  rw [hna, hnb] at hnames
  exact absurd hnames (by decide)

end Stencil
