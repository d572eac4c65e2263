import Stencil.Proofs.Alike
import Stencil.Proofs.Coupling
import Stencil.Proofs.Still
import Stencil.Render.Run
/-! What templates do, in two renders side by side. A link names the instances that run in both and
relates the machines' states, and says that single steps keep that; a bond says so of calls, too. Then
all operations keep it. -/

namespace Stencil

open Rendering

/-! ## Writing -/

theorem Rendering.writeText_apply (settings : Settings) (env : Env) (text : String) (m : Machine) :
    writeText settings env text m =
      if m.sink.failed || text.isEmpty then .done () m
      else match m.sink.accept? text with
        | some sink => .done () { m with sink, cursor := sink.position }
        | none => .done () (Machine.report settings env .outputFailure [] [writerFailure]
            { m with sink := m.sink.refuse }) := by
  change (ite _ _ _ : Rendering Unit) m = _
  split
  · rfl
  · cases m.sink.accept? text <;> rfl

theorem Rendering.capture_apply (x : Rendering Unit) (m : Machine) :
    capture x m = (x { m with sink := .scratch m.cursor }).bind fun _ k =>
      .done k.sink.text { k with sink := m.sink, cursor := m.cursor } := rfl

/-! ## Looking up templates -/

theorem Rendering.resolve_eq (settings : Settings) (env : Env) (callee : Callee) :
    resolve settings env callee = inWorkspace (Group.resolveFound callee.name
      (if callee.inherited then env.here.bound.native.findInherited? callee.name
        else settings.group.find? callee.name)) := by
  unfold resolve
  split <;> rfl

/-! ## Writing values -/

variable {A : Accord} {α β γ δ : Type}

/-- A relation of the actions of two renders that lets them go on side by side. -/
structure Relating where
  rel : {α β : Type} → (α → β → Prop) → Rendering α → Rendering β → Prop
  pure : ∀ {α β : Type} {Q : α → β → Prop} {a : α} {b : β}, Q a b → rel Q (pure a) (pure b)
  bind : ∀ {α β γ δ : Type} {P : α → β → Prop} {Q : γ → δ → Prop} {x : Rendering α} {y : Rendering β}
    {f : α → Rendering γ} {g : β → Rendering δ}, rel P x y → (∀ a b, P a b → rel Q (f a) (g b)) →
    rel Q (x >>= f) (y >>= g)

/-- Actions stay side by side wherever they write to. -/
def Relating.everywhere (A : Accord) {Outlet : Type} (state : Outlet → Machine → Machine → Prop) : Relating where
  rel Q x y := ∀ o, Rendering.Matched A (state o) Q x y
  pure h _ := .pure h
  bind h hf o := (h o).bind fun a b hp => hf a b hp o

/-- Scalars are written side by side where texts are, if groups have the same renderers and their failures are told
side by side. -/
theorem Relating.writeScalar (R : Relating) {settings settings' : Settings} {env env' : Env}
    (renderers : ∀ kind, settings.group.renderer? kind = settings'.group.renderer? kind)
    (text : ∀ s, R.rel (fun _ _ => True) (writeText settings env s) (writeText settings' env' s))
    (told : ∀ arguments causes, R.rel (fun _ _ => True) (report settings env .rendererFailure arguments causes)
      (report settings' env' .rendererFailure arguments causes))
    (kind : ScalarKind) (plain : String) (format : Option String) :
    R.rel (fun _ _ => True) (Rendering.writeScalar settings env kind plain format)
      (Rendering.writeScalar settings' env' kind plain format) := by
  unfold Rendering.writeScalar
  refine R.bind (P := Eq) ?_ fun _ _ h => h ▸ text _
  unfold scalarText
  rw [renderers]
  split
  · exact R.pure rfl
  · split
    · exact R.pure rfl
    · exact R.bind (told _ _) fun _ _ _ => R.pure rfl

/-- Two environments from which texts and scalars are written side by side. -/
structure Pen (R : Relating) where
  settings : Settings
  settings' : Settings
  env : Env
  env' : Env
  text : ∀ s, R.rel (fun _ _ => True) (writeText settings env s) (writeText settings' env' s)
  scalar : ∀ kind plain format, R.rel (fun _ _ => True) (writeScalar settings env kind plain format)
    (writeScalar settings' env' kind plain format)

namespace Pen

variable {R : Relating} (P : Pen R)

theorem writeSeparator (options : WriteOptions) (seen : Bool) :
    R.rel (fun _ _ => True) (Rendering.writeSeparator P.settings P.env options seen)
      (Rendering.writeSeparator P.settings' P.env' options seen) := by
  unfold Rendering.writeSeparator
  split
  · split
    · exact P.text _
    · exact R.pure trivial
  · exact R.pure trivial

theorem writeKeys (options : WriteOptions) : (seen : Bool) → (keys : List String) →
    R.rel (fun _ _ => True) (Rendering.writeKeys P.settings P.env options seen keys)
      (Rendering.writeKeys P.settings' P.env' options seen keys)
  | _, [] => R.pure trivial
  | seen, key :: keys =>
      R.bind (P.writeSeparator options seen) fun _ _ _ =>
        R.bind (P.scalar .text key options.format) fun _ _ _ => writeKeys options true keys

/-- Texts are kept aside and alike instances are called side by side. -/
structure Bonds (I : Instance → Instance → Prop) : Prop where
  capture : ∀ {x y : Rendering Unit}, R.rel (fun _ _ => True) x y → R.rel Eq (Rendering.capture x) (Rendering.capture y)
  call : ∀ {bound bound' : Instance}, bound.Alike I bound' →
    R.rel (fun _ _ => True) (Rendering.call P.env bound) (Rendering.call P.env' bound')

variable {P} {I : Instance → Instance → Prop}

mutual

/-- Writing alike values. -/
theorem Bonds.writeValue (h : P.Bonds I) (options : WriteOptions) : {v v' : Value} → v.Alike I v' →
    R.rel (fun _ _ => True) (Rendering.writeValue P.settings P.env options v)
      (Rendering.writeValue P.settings' P.env' options v')
  | _, _, .null => by
      rw [Rendering.writeValue, Rendering.writeValue]
      cases options.null with
      | none => exact R.pure trivial
      | some s => exact P.text s
  | _, _, .bool b => by
      rw [Rendering.writeValue, Rendering.writeValue]
      exact P.scalar _ _ _
  | _, _, .int n => by
      rw [Rendering.writeValue, Rendering.writeValue]
      exact P.scalar _ _ _
  | _, _, .float x => by
      rw [Rendering.writeValue, Rendering.writeValue]
      exact P.scalar _ _ _
  | _, _, .text s => by
      rw [Rendering.writeValue, Rendering.writeValue]
      exact P.scalar _ _ _
  | _, _, .object t s _ => by
      rw [Rendering.writeValue, Rendering.writeValue]
      exact P.scalar _ _ _
  | _, _, .sequence hv => by
      rw [Rendering.writeValue, Rendering.writeValue]
      exact writeItems h options false hv
  | _, _, .map he => by
      rw [Rendering.writeValue, Rendering.writeValue, he.keys_eq]
      exact P.writeKeys options false _
  | _, _, .template hi => by
      rw [Rendering.writeValue, Rendering.writeValue]
      split
      · exact h.call hi
      · exact R.bind (h.capture (h.call hi)) fun _ _ ht => ht ▸ P.scalar _ _ _

theorem Bonds.writeItems (h : P.Bonds I) (options : WriteOptions) : (seen : Bool) → {vs vs' : List Value} →
    Items.Alike I vs vs' → R.rel (fun _ _ => True) (Rendering.writeItems P.settings P.env options seen vs)
      (Rendering.writeItems P.settings' P.env' options seen vs')
  | _, _, _, .nil => by
      rw [Rendering.writeItems, Rendering.writeItems]
      exact R.pure trivial
  | seen, _, _, .cons hv hvs => by
      rw [Rendering.writeItems, Rendering.writeItems, hv.isNull_eq]
      split
      · exact writeItems h options seen hvs
      · exact R.bind (P.writeSeparator options seen) fun _ _ _ =>
          R.bind (writeValue h options hv) fun _ _ _ => writeItems h options true hvs

end

/-- The text of alike values. -/
theorem Bonds.renderText (h : P.Bonds I) {v v' : Value} (hv : v.Alike I v') :
    R.rel Eq (Rendering.renderText P.settings P.env v) (Rendering.renderText P.settings' P.env' v') := by
  have hw := h.capture (h.writeValue {} hv)
  cases hv with
  | text s => exact R.pure rfl
  | _ => exact hw

theorem Bonds.renderOption (h : P.Bonds I) {o o' : Option Value} (ho : Option.Rel (Value.Alike I) o o') :
    R.rel Eq (o.mapM (Rendering.renderText P.settings P.env)) (o'.mapM (Rendering.renderText P.settings' P.env')) := by
  cases ho with
  | none => exact R.pure rfl
  | some hv => exact R.bind (h.renderText hv) fun _ _ h => R.pure (congrArg some h)

theorem Bonds.renderOptions (h : P.Bonds I) {separator separator' format format' null null' : Option Value}
    (hs : Option.Rel (Value.Alike I) separator separator') (hf : Option.Rel (Value.Alike I) format format')
    (hn : Option.Rel (Value.Alike I) null null') :
    R.rel Eq (Rendering.renderOptions P.settings P.env separator format null)
      (Rendering.renderOptions P.settings' P.env' separator' format' null') :=
  R.bind (h.renderOption hn) fun _ _ hn => R.bind (h.renderOption hf) fun _ _ hf =>
    R.bind (h.renderOption hs) fun _ _ hs => R.pure (by rw [hn, hf, hs])

theorem Bonds.applyBuiltin (h : P.Bonds I) (function : Builtin) {v v' : Value} (hv : v.Alike I v') :
    R.rel (Value.Alike I) (Rendering.applyBuiltin P.settings P.env function v)
      (Rendering.applyBuiltin P.settings' P.env' function v') := by
  unfold Rendering.applyBuiltin
  rw [hv.isNull_eq]
  split
  · exact R.bind (h.renderText hv) fun _ _ ht => R.pure (ht ▸ (Value.Alike.text _).apply function)
  · exact R.pure (hv.apply function)

/-! ## Maps -/

section

variable {templates templates' : List (Option Instance)}
  (ht : List.Forall₂ (Option.Rel (Instance.Alike I)) templates templates')
  (hbind : ∀ {bound bound' : Instance} {v v' : Value} (index : Nat), bound.Alike I bound' → some bound' ∈ templates' →
    v.Alike I v' → R.rel (Value.Alike I) (Rendering.bindElement P.settings P.env bound v index)
      (Rendering.bindElement P.settings' P.env' bound' v' index))
include ht hbind

theorem mapElement {v v' : Value} (hv : v.Alike I v') (index : Nat) :
    R.rel (Value.Alike I) (Rendering.mapElement P.settings P.env templates index v)
      (Rendering.mapElement P.settings' P.env' templates' index v') := by
  unfold Rendering.mapElement
  have hi : Option.Rel (Option.Rel (Instance.Alike I)) templates[index % templates.length]?
      templates'[index % templates'.length]? := by
    rw [ht.length_eq]
    exact getElem?_rel ht _
  have hmem (i : Instance) (hi : templates'[index % templates'.length]? = some (some i)) := List.mem_of_getElem? hi
  generalize templates[index % templates.length]? = o, templates'[index % templates'.length]? = o' at hi hmem
  cases hi with
  | none => exact R.pure .null
  | some hb =>
    cases hb with
    | none => exact R.pure .null
    | some hb => exact hbind index hb (hmem _ rfl) hv

theorem mapElements : (index : Nat) → {vs vs' : List Value} → Items.Alike I vs vs' →
    R.rel (Items.Alike I) (Rendering.mapElements P.settings P.env templates index vs)
      (Rendering.mapElements P.settings' P.env' templates' index vs')
  | _, _, _, .nil => R.pure .nil
  | index, _, _, .cons hv hvs => by
      rw [Rendering.mapElements, Rendering.mapElements, hv.isNull_eq]
      split
      · exact R.bind (mapElements index hvs) fun _ _ hr => R.pure (.cons .null hr)
      · exact R.bind (mapElement ht hbind hv index) fun _ _ hm =>
          R.bind (mapElements (index + 1) hvs) fun _ _ hr => R.pure (.cons hm hr)

/-- Mapping templates over alike values, if alike instances take alike elements. -/
theorem mapValue {v v' : Value} (hv : v.Alike I v') :
    R.rel (Value.Alike I) (Rendering.mapValue P.settings P.env v templates)
      (Rendering.mapValue P.settings' P.env' v' templates') := by
  have he : templates.isEmpty = templates'.isEmpty := by cases ht <;> rfl
  unfold Rendering.mapValue
  rw [hv.isNull_eq, he, hv.isMultiple_eq]
  split
  · exact R.pure .null
  · refine R.bind (mapElements ht hbind 0 hv.elements) fun _ _ hr => ?_
    split
    · exact R.pure (.sequence hr)
    · exact R.pure hr.getLastD

end

end Pen

/-! ## Links -/

/-- Two environments carry out the same region of source, for instances with the same native group. -/
structure Env.Abreast (env env' : Env) : Prop where
  place : env.place = env'.place
  native : env.here.bound.native = env'.here.bound.native

theorem Env.Abreast.refl (env : Env) : env.Abreast env := ⟨rfl, rfl⟩

/-- Problems with renderers and with properties may be reported. -/
structure UsualAllowed (allowed : Kind → Prop) : Prop where
  rendererFailure : allowed .rendererFailure
  noSuchProperty : allowed .noSuchProperty
  indexOutOfRange : allowed .indexOutOfRange

theorem UsualAllowed.all : UsualAllowed fun _ => True := ⟨trivial, trivial, trivial⟩

/-- Two environments whose instances run side by side, and relations of states that the single steps of
both keep: one for each outlet, as what is written may go to the output or be kept aside. Values are
alike when their templates are related by `bare`. Only problems of the allowed kinds need to be
reported side by side, apart from those of writing itself, only at the places that are visited, and
only templates of `found` and `inner` need to be made instances of. -/
structure Link (A : Accord) where
  settings : Settings
  env : Env
  env' : Env
  bare : Instance → Instance → Prop
  Outlet : Type
  state : Outlet → Machine → Machine → Prop
  allowed : Kind → Prop
  visited : Option Span → Prop
  found : Callee → Except Unresolved (Group × Program) → Prop
  inner : Program → Prop
  abreast : env.Abreast env'
  here : env.here.bound.Alike bare env'.here.bound
  program_eq : ∀ i i', bare i i' → i.program = i'.program
  usual : UsualAllowed allowed
  placed : visited env.place
  writes : ∀ o place s, visited place → Matched A (state o) (fun _ _ => True)
    (writeText settings (env.atPlace place) s) (writeText settings (env'.atPlace place) s)
  report : ∀ o place m m' kind arguments causes, visited place → allowed kind → state o m m' →
    state o (m.report settings (env.atPlace place) kind arguments causes)
      (m'.report settings (env'.atPlace place) kind arguments causes)
  keepDefault : ∀ o m m' name v v', v.Alike bare v' → state o m m' →
    state o (m.changeFrames (·.storeDefault env.scope name v))
      (m'.changeFrames (·.storeDefault env'.scope name v'))
  lookup : ∀ o m m' name, state o m m' → Option.Rel (Value.Alike bare)
    (lookupFrom m.frames name none env.activations) (lookupFrom m'.frames name none env'.activations)
  resolve : ∀ callee o, Matched A (state o) (fun r r' => r = r' ∧ found callee r)
    (resolve settings env callee) (resolve settings env' callee)
  fresh : ∀ callee native program, found callee (.ok (native, program)) →
    bare (.ofProgram settings.group native program none) (.ofProgram settings.group native program none)
  enclosed : ∀ program, inner program →
    bare (enclosed settings env program) (enclosed settings env' program)

/-- A link of instances that call others side by side, which may write elsewhere and evaluate early.
Positions that are taken in both are related by `near`, and whether the frames run early by `early`. -/
structure Bond (A : Accord) extends Link A where
  near : Nat → Nat → Prop
  early : Bool → Bool → Prop
  captures : ∀ {x y : Rendering Unit}, (∀ o, Matched A (state o) (fun _ _ => True) x y) →
    ∀ o, Matched A (state o) Eq (capture x) (capture y)
  positions : ∀ o m m', state o m m' → near m.sink.position m'.sink.position
  early_true : early true true
  isEarly : ∀ o m m', state o m m' → early (m.frames.isEarly env.scope) (m'.frames.isEarly env'.scope)
  setEarly : ∀ o m m' b b', early b b' → state o m m' →
    state o (m.changeFrames (·.setEarly env.scope b)) (m'.changeFrames (·.setEarly env'.scope b'))
  record : ∀ o m m' output output' source, near output.start output'.start → near output.stop output'.stop →
    state o m m' →
    state o
      (m.changeFrames fun f => if f.isEarly env.scope then f else f.recordWriting ⟨env.scope, output, source⟩)
      (m'.changeFrames fun f => if f.isEarly env'.scope then f else f.recordWriting ⟨env'.scope, output', source⟩)
  call : ∀ o place bound bound', visited place → bound.Alike bare bound' →
    A (env.atPlace place) bound (env'.atPlace place) bound' (state o)

namespace Link

variable (L : Link A)

/-- Two actions that stay side by side wherever they write to, and give related values. -/
abbrev Matched (Q : α → β → Prop) (x : Rendering α) (y : Rendering β) : Prop :=
  ∀ o, Rendering.Matched A (L.state o) Q x y

/-- Two attempts that stay side by side wherever they write to. Both fail, or both give values, which
are related. -/
abbrev Attempted (Q : α → β → Prop) (x : Attempt α) (y : Attempt β) : Prop :=
  ∀ o, Attempt.Matched A (L.state o) Q x y

variable {L}

namespace Matched

variable {P : α → β → Prop} {Q : γ → δ → Prop} {x : Rendering α} {y : Rendering β}

theorem pure {a : γ} {b : δ} (h : Q a b) : L.Matched Q (pure a) (pure b) := fun _ => .pure h

theorem bind {f : α → Rendering γ} {g : β → Rendering δ} (h : L.Matched P x y)
    (hf : ∀ a b, P a b → L.Matched Q (f a) (g b)) : L.Matched Q (x >>= f) (y >>= g) :=
  fun o => (h o).bind fun a b hp => hf a b hp o

theorem map {f : α → γ} {g : β → δ} (h : L.Matched P x y) (hf : ∀ a b, P a b → Q (f a) (g b)) :
    L.Matched Q (f <$> x) (g <$> y) := fun o => (h o).map hf

theorem modify {f g : Machine → Machine} (hn : ∀ m, (g m).frames.size = m.frames.size)
    (h : ∀ o m m', L.state o m m' → L.state o (f m) (g m')) :
    L.Matched (fun _ _ => True) (modify f : Rendering Unit) (modify g : Rendering Unit) :=
  fun o => .modify hn (h o)

theorem reads {f : Machine → γ} {g : Machine → δ} (h : ∀ o m m', L.state o m m' → Q (f m) (g m')) :
    L.Matched Q (f <$> (get : Rendering Machine)) (g <$> (get : Rendering Machine)) :=
  fun o => .reads (h o)

end Matched

namespace Attempted

variable {P : α → β → Prop} {Q : γ → δ → Prop}

theorem pure {a : γ} {b : δ} (h : Q a b) : L.Attempted Q (pure a) (pure b) := fun _ => .pure h

theorem failure : L.Attempted Q (failure : Attempt γ) (failure : Attempt δ) := fun _ => .failure

theorem bind {x : Attempt α} {y : Attempt β} {f : α → Attempt γ} {g : β → Attempt δ}
    (h : L.Attempted P x y) (hf : ∀ a b, P a b → L.Attempted Q (f a) (g b)) :
    L.Attempted Q (x >>= f) (y >>= g) :=
  fun o => (h o).bind fun a b hp => hf a b hp o

theorem mono {P' : α → β → Prop} {x : Attempt α} {y : Attempt β} (h : L.Attempted P x y)
    (hp : ∀ a b, P a b → P' a b) : L.Attempted P' x y := fun o => (h o).mono hp

theorem lift {x : Rendering γ} {y : Rendering δ} (h : L.Matched Q x y) :
    L.Attempted Q (liftM x) (liftM y) := fun o => .lift (h o)

end Attempted

variable (L)

/-- The same instances carry out another region of source. -/
def atPlace {place : Option Span} (h : L.visited place) : Link A :=
  { L with
    env := L.env.atPlace place
    env' := L.env'.atPlace place
    abreast := ⟨rfl, L.abreast.native⟩
    placed := h }

/-- Whatever goes wrong apart from writing may be reported. -/
def Open : Prop := ∀ kind, kind ≠ .outputFailure → L.allowed kind

theorem atPlace_here : L.env'.atPlace L.env.place = L.env' := by
  rw [L.abreast.place]
  rfl

theorem program_here : L.env.program = L.env'.program :=
  L.here.program_eq L.program_eq

/-! ## Writing scalars -/

theorem reported {kind : Kind} (h : L.allowed kind) (arguments causes : List String) :
    L.Matched (fun _ _ => True) (Rendering.report L.settings L.env kind arguments causes)
      (Rendering.report L.settings L.env' kind arguments causes) :=
  .modify (fun _ => rfl) fun o m m' hm => by
    have hr := L.report o L.env.place m m' kind arguments causes L.placed h hm
    rw [L.atPlace_here] at hr
    exact hr

theorem writeText (s : String) : L.Matched (fun _ _ => True)
    (Rendering.writeText L.settings L.env s) (Rendering.writeText L.settings L.env' s) := fun o => by
  have hw := L.writes o L.env.place s L.placed
  rw [L.atPlace_here] at hw
  exact hw

theorem writeScalar (kind : ScalarKind) (plain : String) (format : Option String) :
    L.Matched (fun _ _ => True) (Rendering.writeScalar L.settings L.env kind plain format)
      (Rendering.writeScalar L.settings L.env' kind plain format) :=
  (Relating.everywhere A L.state).writeScalar (fun _ => rfl) L.writeText (L.reported L.usual.rendererFailure) _ _ _

/-- Texts and scalars are written side by side. -/
def pen : Pen (.everywhere A L.state) := ⟨L.settings, L.settings, L.env, L.env', L.writeText, L.writeScalar⟩

theorem writeSeparator (options : WriteOptions) (seen : Bool) :
    L.Matched (fun _ _ => True) (Rendering.writeSeparator L.settings L.env options seen)
      (Rendering.writeSeparator L.settings L.env' options seen) := L.pen.writeSeparator options seen

theorem writeKeys (options : WriteOptions) (seen : Bool) (keys : List String) :
    L.Matched (fun _ _ => True) (Rendering.writeKeys L.settings L.env options seen keys)
      (Rendering.writeKeys L.settings L.env' options seen keys) := L.pen.writeKeys options seen keys

/-! ## Expressions -/

theorem isPassed_eq (name : String) : isPassed L.env name = isPassed L.env' name := by
  cases L.here with
  | mk _ ha =>
    have hl := ha.lookup name
    unfold isPassed Dict.contains Dict.find?
    generalize L.env.here.bound.attributes.lookup name = o,
      L.env'.here.bound.attributes.lookup name = o' at hl
    cases hl <;> rfl

theorem readAttribute (name : String) :
    L.Matched (Value.Alike L.bare) (Rendering.readAttribute L.env name)
      (Rendering.readAttribute L.env' name) :=
  .reads fun o m m' hm => .getD (L.lookup o m m' name hm)

theorem storeDefault (name : String) {v v' : Value} (h : v.Alike L.bare v') :
    L.Matched (fun _ _ => True) (Rendering.storeDefault L.env name v)
      (Rendering.storeDefault L.env' name v') :=
  .modify (fun m => m.frames.size_change _ _) fun o m m' hm => L.keepDefault o m m' name v v' h hm

theorem readProperty {v v' : Value} (h : v.Alike L.bare v') (name : String) :
    L.Matched (Value.Alike L.bare) (Rendering.readProperty L.settings L.env v name)
      (Rendering.readProperty L.settings L.env' v' name) := by
  have hp := h.property L.program_eq name
  unfold Rendering.readProperty
  generalize v.property name = r, v'.property name = r' at hp
  cases hp with
  | ok hv => exact .pure hv
  | error e =>
    have ha : L.allowed e.kind := by
      cases e with
      | noSuchProperty => exact L.usual.noSuchProperty
      | indexOutOfRange => exact L.usual.indexOutOfRange
    exact .bind (L.reported ha _ _) fun _ _ _ => .pure .null

/-! ## Instances of templates -/

/-- Arguments that are alike. -/
inductive PassedAlike (I : Instance → Instance → Prop) : Passed → Passed → Prop where
  | positional {vs vs'} : Items.Alike I vs vs' → PassedAlike I (.positional vs) (.positional vs')
  | named {es es'} : Entries.Alike I es es' → PassedAlike I (.named es) (.named es')

theorem PassedAlike.refl : (passed : Passed) → PassedAlike Eq passed passed
  | .positional vs => .positional (.refl (fun _ => rfl) vs)
  | .named es => .named (.refl (fun _ => rfl) es)

/-- Templates take what is passed. -/
def Suits (formals : Formals) : Passed → Prop
  | .positional values => values.length ≤ formals.size
  | .named values => ∀ name ∈ Dict.keys values, formals.accepts name = true

/-- Both give instances that are alike, of a program that the second one is known to have. -/
def Made (program : Program) (i i' : Instance) : Prop := i.Alike L.bare i' ∧ i'.program = program

variable {L}

theorem Made.bindAll {program : Program} : {i i' : Instance} → L.Made program i i' →
    (ps : List Parameter) → {vs vs' : List Value} → Items.Alike L.bare vs vs' →
    L.Made program ((ps.zip vs).foldl (fun i (p, v) => i.bind p.name v) i)
      ((ps.zip vs').foldl (fun i (p, v) => i.bind p.name v) i')
  | _, _, hi, [], _, _, _ => hi
  | _, _, hi, _ :: _, _, _, .nil => hi
  | _, _, hi, p :: ps, _, _, .cons hv hvs => Made.bindAll ⟨hi.1.bind p.name hv, hi.2⟩ ps hvs

variable (L)

theorem enclosed_alike {program : Program} (h : L.inner program) :
    (Rendering.enclosed L.settings L.env program).Alike L.bare
      (Rendering.enclosed L.settings L.env' program) :=
  .mk (L.enclosed program h) .nil

theorem bindNamed (template : String) {program : Program} : {bound bound' : Instance} →
    L.Made program bound bound' → {es es' : List (String × Value)} → Entries.Alike L.bare es es' →
    (L.allowed .noSuchFormalArgument ∨ Suits program.formals (.named es)) →
    L.Matched (L.Made program) (Rendering.bindNamed L.settings L.env template bound es)
      (Rendering.bindNamed L.settings L.env' template bound' es')
  | _, _, hb, _, _, .nil, _ => .pure hb
  | bound, bound', hb, _, _, .cons name hv hes, h => by
      have hp : bound.program = bound'.program := hb.1.program_eq L.program_eq
      have hrest := h.imp_right fun h name hn => h name (List.mem_cons_of_mem _ hn)
      rw [Rendering.bindNamed, Rendering.bindNamed, hp, hb.2]
      split
      · exact bindNamed template ⟨hb.1.bind name hv, hb.2⟩ hes hrest
      · rename_i ha
        have hallowed := h.resolve_right fun h => ha (h name List.mem_cons_self)
        exact .bind (L.reported hallowed _ _) fun _ _ _ => bindNamed template hb hes hrest

theorem bindArguments (template : String) {bound bound' : Instance} (hb : bound.Alike L.bare bound')
    {passed passed' : Passed} (hp : PassedAlike L.bare passed passed')
    (h : L.Open ∨ Suits bound'.program.formals passed) :
    L.Attempted (L.Made bound'.program)
      (Rendering.bindArguments L.settings L.env template bound passed)
      (Rendering.bindArguments L.settings L.env' template bound' passed') := by
  cases hp with
  | positional hv =>
    rw [Rendering.bindArguments, Rendering.bindArguments, ← hv.length_eq, hb.program_eq L.program_eq]
    dsimp only
    split
    · rename_i hlt
      have hallowed := h.resolve_right fun h => Nat.not_le.mpr hlt h
      exact .bind (.lift (L.reported (hallowed .argumentCountMismatch nofun) _ _)) fun _ _ _ =>
        .bind (P := fun _ _ => False) .failure nofun
    · exact .pure (Made.bindAll ⟨hb, rfl⟩ _ hv)
  | named he => exact .lift (L.bindNamed template ⟨hb, rfl⟩ he (h.imp_left fun h => h .noSuchFormalArgument nofun))

/-- Calls of a template that is there and takes what is passed cannot go wrong. -/
def Reaches (callee : Callee) (formals : Formals) : Prop :=
  ∀ r, L.found callee r → ∃ native program, r = .ok (native, program) ∧ program.formals = formals

theorem instantiate (callee : Callee) {passed passed' : Passed}
    (hp : PassedAlike L.bare passed passed')
    (h : L.Open ∨ ∃ formals, L.Reaches callee formals ∧ Suits formals passed) :
    L.Attempted
      (fun i i' => i.Alike L.bare i' ∧ ∃ native, L.found callee (.ok (native, i'.program)))
      (Rendering.instantiate L.settings L.env callee passed)
      (Rendering.instantiate L.settings L.env' callee passed') := by
  refine .bind (.lift (L.resolve callee)) fun r _ ⟨hr, hfound⟩ => ?_
  subst hr
  have hopen (e : Unresolved) (he : r = .error e) : L.Open := by
    refine h.resolve_right fun ⟨formals, hreach, _⟩ => ?_
    obtain ⟨native, program, hok, -⟩ := hreach r hfound
    cases he.symm.trans hok
  split
  · exact .bind (.lift (L.reported (hopen _ rfl .undefinedTemplate nofun) _ _)) fun _ _ _ => .failure
  · exact .bind (.lift (L.reported (hopen _ rfl .templateCompileFailed nofun) _ _)) fun _ _ _ => .failure
  · rename_i native program _
    have hfresh : (Instance.ofProgram L.settings.group native program none).Alike L.bare
        (.ofProgram L.settings.group native program none) := .mk (L.fresh callee _ _ hfound) .nil
    have hsuits : L.Open ∨ Suits program.formals passed := by
      refine h.imp_right fun ⟨formals, hreach, hs⟩ => ?_
      obtain ⟨native', program', hok, rfl⟩ := hreach _ hfound
      cases hok
      exact hs
    exact (L.bindArguments _ hfresh hp hsuits).mono fun _ _ hm => ⟨hm.1, native, hm.2 ▸ hfound⟩

theorem instantiateComputed (all : L.Open) (name : String) {passed passed' : Passed}
    (hp : PassedAlike L.bare passed passed') :
    L.Attempted (Instance.Alike L.bare)
      (Rendering.instantiateComputed L.settings L.env name passed)
      (Rendering.instantiateComputed L.settings L.env' name passed') := by
  unfold Rendering.instantiateComputed
  rw [L.abreast.place, L.program_here]
  split
  · exact .bind (.lift (L.reported (all .emptyTemplateName nofun) _ _)) fun _ _ _ =>
      .bind (P := fun _ _ => False) .failure nofun
  · exact (L.instantiate _ hp (.inl all)).mono fun _ _ hm => hm.1

/-- Whether a template can be mapped. -/
def Receives (program : Program) : Prop := program.formals.receiver?.isSome = true

theorem bindElement {bound bound' : Instance} (hb : bound.Alike L.bare bound')
    (h : L.allowed .mapTemplateWithoutParameters ∨ Receives bound'.program) {v v' : Value}
    (hv : v.Alike L.bare v') (index : Nat) :
    L.Matched (Value.Alike L.bare) (Rendering.bindElement L.settings L.env bound v index)
      (Rendering.bindElement L.settings L.env' bound' v' index) := by
  unfold Rendering.bindElement
  rw [Instance.name, Instance.name, hb.program_eq L.program_eq]
  split
  · rename_i hnone
    have hallowed := h.resolve_right fun h => by
      rw [Receives, hnone] at h
      cases h
    exact .bind (L.reported hallowed _ _) fun _ _ _ => .pure .null
  · exact .pure (.template (((hb.bind _ hv).bind _ (.ofNat _)).bind _ (.ofNat _)))

theorem mapValue {templates templates' : List (Option Instance)}
    (ht : List.Forall₂ (Option.Rel (Instance.Alike L.bare)) templates templates')
    (h : L.allowed .mapTemplateWithoutParameters ∨ ∀ i, some i ∈ templates' → Receives i.program)
    {v v' : Value} (hv : v.Alike L.bare v') :
    L.Matched (Value.Alike L.bare) (Rendering.mapValue L.settings L.env v templates)
      (Rendering.mapValue L.settings L.env' v' templates') :=
  Pen.mapValue (P := L.pen) ht (fun index hb hm hv => L.bindElement hb (h.imp_right fun h => h _ hm) hv index) hv

end Link

namespace Bond

variable (B : Bond A)

/-- The same instances carry out another region of source. -/
def atPlace {place : Option Span} (h : B.visited place) : Bond A :=
  { B with toLink := B.toLink.atPlace h }

theorem capture {x y : Rendering Unit} (h : B.Matched (fun _ _ => True) x y) :
    B.Matched Eq (Rendering.capture x) (Rendering.capture y) := B.captures h

theorem called {bound bound' : Instance} (h : bound.Alike B.bare bound') :
    B.Matched (fun _ _ => True) (Rendering.call B.env bound) (Rendering.call B.env' bound') :=
  fun o _ _ hm => by
    have hc := B.call o B.env.place bound bound' B.placed h
    rw [B.atPlace_here] at hc
    exact .call hc hm rfl fun _ _ hm => .done ⟨trivial, hm⟩ rfl

theorem bonds : B.pen.Bonds B.bare := ⟨B.capture, B.called⟩

/-- Writing alike values. -/
theorem writeValue (options : WriteOptions) {v v' : Value} (h : v.Alike B.bare v') :
    B.Matched (fun _ _ => True) (Rendering.writeValue B.settings B.env options v)
      (Rendering.writeValue B.settings B.env' options v') := B.bonds.writeValue options h

theorem renderText {v v' : Value} (h : v.Alike B.bare v') :
    B.Matched Eq (Rendering.renderText B.settings B.env v)
      (Rendering.renderText B.settings B.env' v') := B.bonds.renderText h

theorem renderOptions {separator separator' format format' null null' : Option Value}
    (hs : Option.Rel (Value.Alike B.bare) separator separator')
    (hf : Option.Rel (Value.Alike B.bare) format format')
    (hn : Option.Rel (Value.Alike B.bare) null null') :
    B.Matched Eq (Rendering.renderOptions B.settings B.env separator format null)
      (Rendering.renderOptions B.settings B.env' separator' format' null') := B.bonds.renderOptions hs hf hn

theorem position : B.Matched B.near Rendering.position Rendering.position :=
  .reads B.positions

theorem renderEarly {v v' : Value} (h : v.Alike B.bare v') :
    B.Matched Eq (Rendering.renderEarly B.settings B.env v)
      (Rendering.renderEarly B.settings B.env' v') := by
  refine .bind (P := fun f f' => B.early (f.isEarly B.env.scope) (f'.isEarly B.env'.scope))
    (.reads B.isEarly) fun f f' hf => ?_
  have set {b b' : Bool} (hb : B.early b b') := Link.Matched.modify (L := B.toLink)
    (fun m => m.frames.size_change B.env'.scope _) fun o m m' hm => B.setEarly o m m' b b' hb hm
  exact .bind (set B.early_true) fun _ _ _ => .bind (B.renderText h) fun _ _ ht =>
    .bind (set hf) fun _ _ _ => .pure ht

theorem writeExpression (options : WriteOptions) {v v' : Value} (h : v.Alike B.bare v') :
    B.Matched (fun _ _ => True) (Rendering.writeExpression B.settings B.env options v)
      (Rendering.writeExpression B.settings B.env' options v') := by
  refine .bind B.position fun start _ h₁ => .bind (B.writeValue options h) fun _ _ _ =>
    .bind B.position fun stop _ h₂ => .modify (fun m => ?_) fun o m m' hm => ?_
  · simp only [Machine.changeFrames]
    split
    · rfl
    · exact m.frames.size_recordWriting _
  · rw [← B.abreast.place]
    exact B.record o m m' ⟨start, stop⟩ ⟨_, _⟩ B.env.place h₁ h₂ hm

theorem readPropertyAt {v v' key key' : Value} (h : v.Alike B.bare v') (hk : key.Alike B.bare key') :
    B.Matched (Value.Alike B.bare) (Rendering.readPropertyAt B.settings B.env v key)
      (Rendering.readPropertyAt B.settings B.env' v' key') := by
  unfold Rendering.readPropertyAt
  rw [hk.int?_eq]
  split
  · exact B.readProperty h _
  · exact .bind (B.renderText hk) fun _ _ ht => ht ▸ B.readProperty h _

theorem applyBuiltin (function : Builtin) {v v' : Value} (h : v.Alike B.bare v') :
    B.Matched (Value.Alike B.bare) (Rendering.applyBuiltin B.settings B.env function v)
      (Rendering.applyBuiltin B.settings B.env' function v') := B.bonds.applyBuiltin function h

end Bond

end Stencil
