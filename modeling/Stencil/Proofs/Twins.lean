import Stencil.Proofs.Faces
import Stencil.Proofs.Tie
/-! Two renders of the same templates that number their frames differently. Instances correspond if they
belong to activations in the same places of the chains that run. -/

namespace Stencil

open Rendering

/-! ## Looking up names -/

/-- What an instance has itself: an attribute, or else the default of a parameter. -/
def Activation.own? (a : Activation) (frames : Frames) (name : String) : Option Value :=
  (Dict.find? a.bound.attributes name).or (frames.default? a.scope name)

/-- In the place that is looked for, an instance's own comes first. -/
theorem lookupFrom_here (frames : Frames) (name : String) {wanted : Option Nat} {a : Activation}
    (h : wanted.all (· == a.scope) = true) (as : List Activation) :
    lookupFrom frames name wanted (a :: as) = (a.own? frames name).or
      (a.bound.enclosing.bind fun scope => lookupFrom frames name (some scope) as) := by
  rw [lookupFrom, if_pos h, Activation.own?]
  cases Dict.find? a.bound.attributes name with
  | some v => rfl
  | none =>
    cases frames.default? a.scope name with
    | some v => rfl
    | none => cases a.bound.enclosing <;> rfl

theorem lookupFrom_past (frames : Frames) (name : String) {scope : Nat} {a : Activation}
    (h : scope ≠ a.scope) (as : List Activation) :
    lookupFrom frames name (some scope) (a :: as) = lookupFrom frames name (some scope) as := by
  rw [lookupFrom, if_neg]
  rw [Option.all_some, beq_iff_eq]
  exact h

theorem or_rel {α β : Type} {R : α → β → Prop} {o p : Option α} {o' p' : Option β}
    (h : Option.Rel R o o') (hp : Option.Rel R p p') : Option.Rel R (o.or p) (o'.or p') := by
  cases h with
  | some h => exact .some h
  | none => exact hp

/-! ## Chains of activations -/

/-- The frames of activations in the same places of two chains. -/
def world (as as' : List Activation) : List (Nat × Nat) :=
  (as.map Activation.scope).zip (as'.map Activation.scope)

/-- Instances that are equal but for the numbers of their frames, which a world relates. -/
structure Instance.Twin (w : List (Nat × Nat)) (i i' : Instance) : Prop where
  group : i.group = i'.group
  native : i.native = i'.native
  program : i.program = i'.program
  enclosing : Option.Rel (fun scope scope' => (scope, scope') ∈ w) i.enclosing i'.enclosing

theorem Instance.Twin.mono {w w' : List (Nat × Nat)} (h : w ⊆ w') (i i' : Instance)
    (ht : i.Twin w i') : i.Twin w' i' where
  group := ht.group
  native := ht.native
  program := ht.program
  enclosing := by
    have he := ht.enclosing
    generalize i.enclosing = e, i'.enclosing = e' at he
    cases he with
    | none => exact .none
    | some hm => exact .some (h hm)

theorem Instance.Alike.twin {w : List (Nat × Nat)} {i i' : Instance}
    (h : i.Alike (Instance.Twin w) i') : i.Twin w i' := by
  cases h with
  | mk hb _ => exact ⟨hb.group, hb.native, hb.program, hb.enclosing⟩

/-- Two chains of the same instances. Each instance belongs to activations further out, and frames get
greater numbers the further in they are. -/
inductive Kin : List Activation → List Activation → Prop where
  | nil : Kin [] []
  | cons {a a' as as'} (bound : a.bound.Alike (Instance.Twin (world as as')) a'.bound)
      (lt : ∀ b ∈ as, b.scope < a.scope) (lt' : ∀ b ∈ as', b.scope < a'.scope) (outer : Kin as as') :
      Kin (a :: as) (a' :: as')

variable {a a' : Activation} {as as' : List Activation}

theorem mem_world {s s' : Nat} (h : (s, s') ∈ world as as') :
    s ∈ as.map Activation.scope ∧ s' ∈ as'.map Activation.scope :=
  ⟨(List.of_mem_zip h).1, (List.of_mem_zip h).2⟩

/-- Instances belong to activations in the same places of two chains, and to the same ones in longer chains. -/
structure Worldly (J : List (Nat × Nat) → Instance → Instance → Prop) : Prop where
  mono : ∀ {w w'}, w ⊆ w' → ∀ i i', J w i i' → J w' i i'
  enclosing : ∀ {w i i'}, J w i i' → Option.Rel (fun scope scope' => (scope, scope') ∈ w) i.enclosing i'.enclosing

theorem Instance.Twin.worldly : Worldly Instance.Twin := ⟨Instance.Twin.mono, fun h => h.enclosing⟩

/-- Two chains of instances that are related within what is around them, in frames with alike defaults. Frames get
greater numbers the further in they are. -/
inductive Sees (J : List (Nat × Nat) → Instance → Instance → Prop) (f f' : Frames) :
    List Activation → List Activation → Prop where
  | nil : Sees J f f' [] []
  | cons {a a' : Activation} {as as' : List Activation} (bound : a.bound.Alike (J (world as as')) a'.bound)
      (lt : ∀ b ∈ as, b.scope < a.scope) (lt' : ∀ b ∈ as', b.scope < a'.scope)
      (defaults : ∀ name, Option.Rel (Value.Alike (J (world (a :: as) (a' :: as'))))
        (f.default? a.scope name) (f'.default? a'.scope name))
      (outer : Sees J f f' as as') : Sees J f f' (a :: as) (a' :: as')

/-- Looking up a name from activations in the same place finds alike values. -/
theorem Sees.lookup {J : List (Nat × Nat) → Instance → Instance → Prop} (hJ : Worldly J) {f f' : Frames}
    (h : Sees J f f' as as') (name : String) {s s' : Option Nat}
    (hs : Option.Rel (fun s s' => (s, s') ∈ world as as') s s') :
    Option.Rel (Value.Alike (J (world as as'))) (lookupFrom f name s as) (lookupFrom f' name s' as') := by
  induction h generalizing s s' with
  | nil =>
    cases hs with
    | none => exact .none
    | some hm => cases hm
  | @cons a a' as as' bound lt lt' defaults outer ih =>
    have hw : world as as' ⊆ world (a :: as) (a' :: as') := List.subset_cons_self _ _
    -- past the innermost instances, values belong to the chains around them
    have hpast {s s' : Option Nat} (hs : Option.Rel (fun s s' => (s, s') ∈ world as as') s s') :=
      rel_mono (fun _ _ => Value.Alike.mono (hJ.mono hw)) (ih hs)
    have hown : Option.Rel (Value.Alike (J (world (a :: as) (a' :: as')))) (a.own? f name) (a'.own? f' name) := by
      refine or_rel ?_ (defaults name)
      cases bound.mono (hJ.mono hw) with
      | mk _ ha => exact ha.lookup name
    have haround : Option.Rel (Value.Alike (J (world (a :: as) (a' :: as'))))
        (a.bound.enclosing.bind fun scope => lookupFrom f name (some scope) as)
        (a'.bound.enclosing.bind fun scope => lookupFrom f' name (some scope) as') := by
      have he : Option.Rel (fun s s' => (s, s') ∈ world as as') a.bound.enclosing a'.bound.enclosing := by
        cases bound with
        | mk hb _ => exact (hJ.enclosing hb :)
      generalize a.bound.enclosing = e, a'.bound.enclosing = e' at he
      cases he with
      | none => exact .none
      | some hm => exact hpast (.some hm)
    cases hs with
    | none =>
      rw [lookupFrom_here f name rfl, lookupFrom_here f' name rfl]
      exact or_rel hown haround
    | some hm =>
      rcases List.mem_cons.mp hm with he | hm
      · cases he
        rw [lookupFrom_here f name (beq_self_eq_true _), lookupFrom_here f' name (beq_self_eq_true _)]
        exact or_rel hown haround
      · have hlt : ∀ s ∈ as.map Activation.scope, s < a.scope := List.forall_mem_map.mpr lt
        have hlt' : ∀ s ∈ as'.map Activation.scope, s < a'.scope := List.forall_mem_map.mpr lt'
        obtain ⟨hs, hs'⟩ := mem_world hm
        rw [lookupFrom_past f name (Nat.ne_of_lt (hlt _ hs)), lookupFrom_past f' name (Nat.ne_of_lt (hlt' _ hs'))]
        exact hpast (.some hm)

namespace Kin

theorem names_eq (h : Kin as as') :
    (as.map fun a => a.bound.name) = as'.map fun a => a.bound.name := by
  induction h with
  | nil => rfl
  | cons bound _ _ _ ih =>
    rw [List.map_cons, List.map_cons, ih, Instance.name, Instance.name, bound.program_eq fun _ _ h => h.program]

theorem here (h : Kin (a :: as) (a' :: as')) :
    a.bound.Alike (Instance.Twin (world (a :: as) (a' :: as'))) a'.bound := by
  cases h with
  | cons bound => exact bound.mono (Instance.Twin.mono (List.subset_cons_self _ _))

theorem length_le (h : Kin (a :: as) (a' :: as')) : as.length ≤ a.scope ∧ as'.length ≤ a'.scope := by
  generalize hc : a :: as = c, hc' : a' :: as' = c' at h
  induction h generalizing a as a' as' with
  | nil => cases hc
  | cons _ lt lt' outer ih =>
    cases hc
    cases hc'
    cases outer with
    | nil => exact ⟨Nat.zero_le _, Nat.zero_le _⟩
    | cons =>
      obtain ⟨h, h'⟩ := ih rfl rfl
      exact ⟨Nat.lt_of_le_of_lt h (lt _ List.mem_cons_self), Nat.lt_of_le_of_lt h' (lt' _ List.mem_cons_self)⟩

end Kin

/-! ## Frames of a chain -/

/-- The frame of an activation, below the frame of the one that called it. -/
structure Frame.Of (frame : Frame) (a : Activation) (callers : List Activation) : Prop where
  template : frame.template = a.bound.name
  parent : frame.parent = callers.head?.map Activation.scope

/-- The frames of a chain are there, each below the next. -/
inductive Frames.Chain (f : Frames) : List Activation → Prop where
  | nil : Chain f []
  | cons {a as frame} (face : f.face? a.scope = some frame) (of : frame.Of a as) (outer : Chain f as) :
      Chain f (a :: as)

namespace Frames.Chain

variable {f : Frames}

theorem congr {g : Frames} (h : f.Chain as) (hg : ∀ b ∈ as, g.face? b.scope = f.face? b.scope) :
    g.Chain as := by
  induction h with
  | nil => exact .nil
  | cons face of _ ih =>
    obtain ⟨hh, ht⟩ := List.forall_mem_cons.mp hg
    exact .cons (hh.trans face) of (ih ht)

/-- The templates of a chain, from its innermost frame upwards. -/
theorem pathUp_eq (h : f.Chain as) {n : Nat} (hn : as.length ≤ n) :
    f.pathUp n (as.head?.map Activation.scope) = as.map fun a => a.bound.name := by
  induction h generalizing n with
  | nil => cases n <;> rfl
  | @cons a as frame face of outer ih =>
    cases n with
    | zero => exact absurd hn (Nat.not_succ_le_zero _)
    | succ n =>
      obtain ⟨g, hg, rfl⟩ := Option.map_eq_some_iff.mp face
      have hp : g.parent = as.head?.map Activation.scope := of.parent
      have ht : g.template = a.bound.name := of.template
      rw [List.head?_cons, Option.map_some, pathUp, hg]
      dsimp only
      rw [hp, ht, ih (Nat.le_of_succ_le_succ hn), List.map_cons]

theorem callPath_eq (h : f.Chain (a :: as)) (hn : as.length ≤ a.scope) :
    f.callPath a.scope = ((a :: as).map fun a => a.bound.name).reverse := by
  cases h with
  | cons face of outer =>
    have hn : (a :: as).length ≤ f.size := Nat.le_trans (Nat.succ_le_succ hn) (f.lt_size_of_face? face)
    exact congrArg List.reverse (pathUp_eq (.cons face of outer) hn)

theorem lt_size (h : f.Chain as) : ∀ b ∈ as, b.scope < f.size := by
  induction h with
  | nil => exact nofun
  | cons face _ _ ih => exact List.forall_mem_cons.mpr ⟨f.lt_size_of_face? face, ih⟩

end Frames.Chain

/-- The frames of two chains are there, and hold defaults that are alike. -/
inductive Frames.Alike (f f' : Frames) : List Activation → List Activation → Prop where
  | nil : Alike f f' [] []
  | cons {a a' as as' frame frame'} (face : f.face? a.scope = some frame) (face' : f'.face? a'.scope = some frame')
      (defaults : Entries.Alike (Instance.Twin (world (a :: as) (a' :: as'))) frame.defaults frame'.defaults)
      (outer : Alike f f' as as') : Alike f f' (a :: as) (a' :: as')

namespace Frames.Alike

variable {f f' g g' : Frames}

/-- Only the frames of the chains matter. -/
theorem congr (h : f.Alike f' as as') (hg : ∀ b ∈ as, g.face? b.scope = f.face? b.scope)
    (hg' : ∀ b ∈ as', g'.face? b.scope = f'.face? b.scope) : g.Alike g' as as' := by
  induction h with
  | nil => exact .nil
  | cons face face' defaults _ ih =>
    obtain ⟨hh, ht⟩ := List.forall_mem_cons.mp hg
    obtain ⟨hh', ht'⟩ := List.forall_mem_cons.mp hg'
    exact .cons (hh.trans face) (hh'.trans face') defaults (ih ht ht')

/-- The instances of the chains see alike values. -/
theorem sees (hk : Kin as as') (h : f.Alike f' as as') : Sees Instance.Twin f f' as as' := by
  induction h with
  | nil => exact .nil
  | cons face face' defaults _ ih =>
    cases hk with
    | cons bound lt lt' hk =>
      refine .cons bound lt lt' (fun name => ?_) (ih hk)
      rw [f.default?_eq, f'.default?_eq, face, face']
      exact defaults.lookup name

/-- Looking up a name from activations in the same place finds alike values. -/
theorem lookup (hk : Kin as as') (h : f.Alike f' as as') (name : String) {s s' : Option Nat}
    (hs : Option.Rel (fun s s' => (s, s') ∈ world as as') s s') :
    Option.Rel (Value.Alike (Instance.Twin (world as as'))) (lookupFrom f name s as)
      (lookupFrom f' name s' as') := (h.sees hk).lookup Instance.Twin.worldly name hs

/-- A change of the frames of the innermost activations. -/
theorem change (hk : Kin (a :: as) (a' :: as')) (h : f.Alike f' (a :: as) (a' :: as')) (c d : Frame → Frame)
    (hc : ∀ frame, (c frame).face = c frame.face) (hd : ∀ frame, (d frame).face = d frame.face)
    (hkeep : ∀ frame frame',
      Entries.Alike (Instance.Twin (world (a :: as) (a' :: as'))) frame.defaults frame'.defaults →
      Entries.Alike (Instance.Twin (world (a :: as) (a' :: as'))) (c frame).defaults (d frame').defaults) :
    (f.change a.scope c).Alike (f'.change a'.scope d) (a :: as) (a' :: as') := by
  cases hk with
  | cons _ lt lt' _ =>
    cases h with
    | cons face face' defaults outer =>
      refine .cons ((f.face?_change hc _).trans (congrArg (Option.map c) face))
        ((f'.face?_change hd _).trans (congrArg (Option.map d) face')) (hkeep _ _ defaults) ?_
      exact outer.congr (fun b hb => f.face?_change_of_ne (Nat.ne_of_gt (lt b hb)) _) fun b hb =>
        f'.face?_change_of_ne (Nat.ne_of_gt (lt' b hb)) _

/-- New frames of instances that the innermost activations call. -/
theorem enter (h : f.Alike f' as as') (hs : ∀ b ∈ as, b.scope < f.size) (hs' : ∀ b ∈ as', b.scope < f'.size)
    (parent parent' : Option Nat) (bound bound' : Instance) :
    (f.enter parent bound.name).2.Alike (f'.enter parent' bound'.name).2 (⟨bound, f.size⟩ :: as)
      (⟨bound', f'.size⟩ :: as') :=
  .cons (f.face?_enter _ _) (f'.face?_enter _ _) .nil
    (h.congr (fun b hb => f.face?_enter_of_lt _ _ (hs b hb)) fun b hb => f'.face?_enter_of_lt _ _ (hs' b hb))

end Frames.Alike

/-- The frames of two chains are there, and templates see the same in them. -/
inductive Frames.Paired (f f' : Frames) : List Activation → List Activation → Prop where
  | nil : Paired f f' [] []
  | cons {a a' as as' frame frame'} (face : f.face? a.scope = some frame)
      (face' : f'.face? a'.scope = some frame') (of : frame.Of a as) (of' : frame'.Of a' as')
      (early : frame.early = frame'.early)
      (defaults : Entries.Alike (Instance.Twin (world (a :: as) (a' :: as'))) frame.defaults frame'.defaults)
      (outer : Paired f f' as as') : Paired f f' (a :: as) (a' :: as')

namespace Frames.Paired

variable {f f' g g' : Frames}

/-- Only the frames of the chains matter. -/
theorem congr (h : f.Paired f' as as') (hg : ∀ b ∈ as, g.face? b.scope = f.face? b.scope)
    (hg' : ∀ b ∈ as', g'.face? b.scope = f'.face? b.scope) : g.Paired g' as as' := by
  induction h with
  | nil => exact .nil
  | cons face face' of of' early defaults _ ih =>
    obtain ⟨hh, ht⟩ := List.forall_mem_cons.mp hg
    obtain ⟨hh', ht'⟩ := List.forall_mem_cons.mp hg'
    exact .cons (hh.trans face) (hh'.trans face') of of' early defaults (ih ht ht')

/-- A change of the frame of the innermost activations. -/
theorem change (hk : Kin (a :: as) (a' :: as')) (h : f.Paired f' (a :: as) (a' :: as'))
    (c d : Frame → Frame) (hc : ∀ frame, (c frame).face = c frame.face)
    (hd : ∀ frame, (d frame).face = d frame.face) (hof : ∀ frame, frame.Of a as → (c frame).Of a as)
    (hof' : ∀ frame, frame.Of a' as' → (d frame).Of a' as')
    (hkeep : ∀ frame frame', frame.early = frame'.early →
      Entries.Alike (Instance.Twin (world (a :: as) (a' :: as'))) frame.defaults frame'.defaults →
      (c frame).early = (d frame').early ∧
        Entries.Alike (Instance.Twin (world (a :: as) (a' :: as'))) (c frame).defaults (d frame').defaults) :
    (f.change a.scope c).Paired (f'.change a'.scope d) (a :: as) (a' :: as') := by
  cases hk with
  | cons _ lt lt' _ =>
    cases h with
    | cons face face' of of' early defaults outer =>
      obtain ⟨he, hdef⟩ := hkeep _ _ early defaults
      refine .cons ((f.face?_change hc _).trans (congrArg (Option.map c) face))
        ((f'.face?_change hd _).trans (congrArg (Option.map d) face')) (hof _ of) (hof' _ of') he hdef ?_
      exact outer.congr (fun b hb => f.face?_change_of_ne (Nat.ne_of_gt (lt b hb)) _) fun b hb =>
        f'.face?_change_of_ne (Nat.ne_of_gt (lt' b hb)) _

theorem isEarly_eq (h : f.Paired f' (a :: as) (a' :: as')) :
    f.isEarly a.scope = f'.isEarly a'.scope := by
  cases h with
  | cons face face' _ _ early => rw [f.isEarly_eq, f'.isEarly_eq, face, face', Option.map_some,
      Option.map_some, early]

theorem setEarly (hk : Kin (a :: as) (a' :: as')) (h : f.Paired f' (a :: as) (a' :: as'))
    (early : Bool) :
    (f.setEarly a.scope early).Paired (f'.setEarly a'.scope early) (a :: as) (a' :: as') :=
  h.change hk (fun frame => { frame with early }) (fun frame => { frame with early }) (fun _ => rfl)
    (fun _ => rfl) (fun _ h => ⟨h.template, h.parent⟩) (fun _ h => ⟨h.template, h.parent⟩)
    fun _ _ _ h => ⟨rfl, h⟩

theorem storeDefault (hk : Kin (a :: as) (a' :: as')) (h : f.Paired f' (a :: as) (a' :: as'))
    (name : String) {v v' : Value} (hv : v.Alike (Instance.Twin (world (a :: as) (a' :: as'))) v') :
    (f.storeDefault a.scope name v).Paired (f'.storeDefault a'.scope name v') (a :: as) (a' :: as') :=
  h.change hk (fun frame => { frame with defaults := Dict.insert name v frame.defaults })
    (fun frame => { frame with defaults := Dict.insert name v' frame.defaults }) (fun _ => rfl)
    (fun _ => rfl) (fun _ h => ⟨h.template, h.parent⟩) (fun _ h => ⟨h.template, h.parent⟩)
    fun _ _ he h => ⟨he, h.insert name hv⟩

theorem left (h : f.Paired f' as as') : f.Chain as := by
  induction h with
  | nil => exact .nil
  | cons face _ of _ _ _ _ ih => exact .cons face of ih

theorem right (h : f.Paired f' as as') : f'.Chain as' := by
  induction h with
  | nil => exact .nil
  | cons _ face _ of _ _ _ ih => exact .cons face of ih

/-- Both have the same call path. -/
theorem callPath_eq (hk : Kin (a :: as) (a' :: as')) (h : f.Paired f' (a :: as) (a' :: as')) :
    f.callPath a.scope = f'.callPath a'.scope := by
  obtain ⟨hl, hl'⟩ := hk.length_le
  rw [h.left.callPath_eq hl, h.right.callPath_eq hl', hk.names_eq]

/-- New frames of instances that the innermost activations call. -/
theorem enter (h : f.Paired f' as as') (bound bound' : Instance) :
    (f.enter (as.head?.map Activation.scope) bound.name).2.Paired
      (f'.enter (as'.head?.map Activation.scope) bound'.name).2 (⟨bound, f.size⟩ :: as)
      (⟨bound', f'.size⟩ :: as') := by
  refine .cons (f.face?_enter _ _) (f'.face?_enter _ _) ⟨rfl, rfl⟩ ⟨rfl, rfl⟩ ?_ .nil ?_
  · cases h with
    | nil => rfl
    | cons face face' _ _ early =>
      simp only [List.head?_cons, Option.map_some, Option.bind_some, face, face', early]
  · exact h.congr (fun b hb => f.face?_enter_of_lt _ _ (h.left.lt_size b hb)) fun b hb =>
      f'.face?_enter_of_lt _ _ (h.right.lt_size b hb)

/-- Leaving the frames of the innermost activations. -/
theorem exit (hk : Kin (a :: as) (a' :: as')) (h : f.Paired f' (a :: as) (a' :: as'))
    (c c' : Completion) : ((f.recordCompletion c).exit a.scope).Paired
      ((f'.recordCompletion c').exit a'.scope) as as' := by
  cases hk with
  | cons _ lt lt' _ =>
    cases h with
    | cons _ _ _ _ _ _ outer =>
      refine outer.congr (fun b hb => ?_) fun b hb => ?_
      · exact (Frames.face?_exit _ (lt b hb)).trans (f.face?_recordCompletion c _)
      · exact (Frames.face?_exit _ (lt' b hb)).trans (f'.face?_recordCompletion c' _)

theorem alike (h : f.Paired f' as as') : f.Alike f' as as' := by
  induction h with
  | nil => exact .nil
  | cons face face' _ _ _ defaults _ ih => exact .cons face face' defaults ih

end Frames.Paired

/-! ## Two renders -/

/-- Two machines in renders of the same templates, of which the second one retains frames. -/
structure Beside (as as' : List Activation) (m m' : Machine) : Prop where
  frames : m.frames.Paired m'.frames as as'
  retained : m'.frames.retained = true
  sink : m.sink = m'.sink
  cursor : m.cursor = m'.cursor
  workspace : m.workspace = m'.workspace

/-- Two activations call instances that correspond. -/
def twinAccord (as as' : List Activation) : Accord := fun env bound env' bound' kept =>
  env.activations = as ∧ env'.activations = as' ∧ env.place = env'.place ∧
    bound.Alike (Instance.Twin (world as as')) bound' ∧ kept = Beside as as'

/-- An instance that runs in both renders. -/
def twinTie (settings : Settings) {env env' : Env} (hk : Kin env.activations env'.activations)
    (hp : env.place = env'.place) : Tie (twinAccord env.activations env'.activations) where
  settings := settings
  env := env
  env' := env'
  bare := Instance.Twin (world env.activations env'.activations)
  state := Beside env.activations env'.activations
  allowed _ := True
  found _ _ := True
  inner _ := True
  abreast := ⟨hp, hk.here.twin.native⟩
  here := hk.here
  program_eq _ _ h := h.program
  sink_eq _ _ h := ⟨h.sink, h.cursor⟩
  withSink _ _ _ _ h := ⟨h.frames, h.retained, rfl, rfl, h.workspace⟩
  report place m m' kind arguments causes _ h := by
    refine ⟨h.frames, h.retained, h.sink, h.cursor, ?_⟩
    have hp : m.frames.callPath env.scope = m'.frames.callPath env'.scope := h.frames.callPath_eq hk
    have hg : env.program = env'.program := hk.here.twin.program
    have hd : m.diagnostic (env.atPlace place) kind arguments causes =
        m'.diagnostic (env'.atPlace place) kind arguments causes := by
      change Diagnostic.mk _ _ _ (some env.program.name) (place.map fun s => .inSource env.program.source _ _)
        (m.frames.callPath env.scope) _ = _
      rw [hp, hg]
      rfl
    simp only [Machine.report, h.workspace, hd]
  usual := .all
  outputFailure := trivial
  isEarly_eq _ _ h := h.frames.isEarly_eq
  setEarly _ _ early h := ⟨h.frames.setEarly hk early, h.retained, h.sink, h.cursor, h.workspace⟩
  record m m' output source h := ⟨h.frames.congr (fun _ _ => m.frames.face?_recordWriting _ _) fun _ _ =>
    m'.frames.face?_recordWriting _ _, (m'.frames.retained_recordWriting _).trans h.retained, h.sink,
    h.cursor, h.workspace⟩
  keepDefault _ _ name _ _ hv h :=
    ⟨h.frames.storeDefault hk name hv, h.retained, h.sink, h.cursor, h.workspace⟩
  lookup _ _ name h := h.frames.alike.lookup hk name .none
  resolve callee := .modifyGet (fun _ => rfl) fun m m' h => by
    have hn : env.here.bound.native = env'.here.bound.native := hk.here.twin.native
    rw [h.workspace]
    simp only [hn]
    exact ⟨⟨rfl, trivial⟩, h.frames, h.retained, h.sink, h.cursor, rfl⟩
  fresh _ _ _ _ := ⟨rfl, rfl, rfl, .none⟩
  enclosed _ _ := ⟨rfl, hk.here.twin.native, rfl, .some List.mem_cons_self⟩
  call _ _ _ h := ⟨rfl, rfl, rfl, h, rfl⟩

end Stencil
