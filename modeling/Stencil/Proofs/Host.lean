import Stencil.Proofs.Sharing
/-! A host holds groups and instances under handles. It builds groups, and asks them for templates, names,
instances and rendered text. -/

namespace Stencil

/-- Things under handles. -/
abbrev Handles (α : Type) := List (String × α)

namespace Handles

variable {α : Type} {id other : String} {a : α}

/-- Puts a thing under a handle, in place of what was there. -/
def put (id : String) (a : α) (held : Handles α) : Handles α := (id, a) :: held.filter fun e => e.1 != id

theorem lookup_put_self (held : Handles α) : (put id a held).lookup id = some a := by
  rw [put, List.lookup_cons, beq_self_eq_true]

theorem lookup_filter_of_ne (h : other ≠ id) : (held : Handles α) →
    (held.filter fun e => e.1 != id).lookup other = held.lookup other
  | [] => rfl
  | e :: held => by
      rw [List.filter_cons, List.lookup_cons]
      cases he : e.1 != id with
      | true => rw [if_pos rfl, List.lookup_cons, lookup_filter_of_ne h held]
      | false =>
        have he : e.1 = id := by simpa using he
        rw [if_neg Bool.false_ne_true, he, beq_false_of_ne h, lookup_filter_of_ne h held]

theorem lookup_put_of_ne (held : Handles α) (h : other ≠ id) : (put id a held).lookup other = held.lookup other := by
  rw [put, List.lookup_cons, beq_false_of_ne h]
  exact lookup_filter_of_ne h held

/-- Puts a thing under a handle, if there is one. -/
def update (id : String) : Option α → Handles α → Handles α
  | some a, held => put id a held
  | none, held => held

theorem lookup_update_of_ne (o : Option α) (held : Handles α) (h : other ≠ id) :
    (update id o held).lookup other = held.lookup other := by
  cases o with
  | none => rfl
  | some a => exact lookup_put_of_ne held h

theorem lookup_update_congr {held held' : Handles α} (o : Option α) (h : held.lookup other = held'.lookup other) :
    (update id o held).lookup other = (update id o held').lookup other := by
  by_cases he : other = id
  · cases o with
    | none => exact h
    | some a => rw [update, update, he, lookup_put_self, lookup_put_self]
  · rw [lookup_update_of_ne _ _ he, lookup_update_of_ne _ _ he, h]

/-- What is held after an update was put there, or else held before. -/
theorem of_lookup_update {o : Option α} {held : Handles α} (h : (update id o held).lookup other = some a) :
    o = some a ∧ other = id ∨ held.lookup other = some a ∧ (o = none ∨ other ≠ id) := by
  cases o with
  | none => exact .inr ⟨h, .inl rfl⟩
  | some b =>
    by_cases he : other = id
    · subst he
      exact .inl ⟨(lookup_put_self held).symm.trans h, rfl⟩
    · exact .inr ⟨(lookup_put_of_ne held he).symm.trans h, .inr he⟩

theorem mem_of_lookup {held : Handles α} (h : held.lookup id = some a) : (id, a) ∈ held :=
  Dict.mem_of_find? h

end Handles

/-! ## Attributes -/

/-- What an attribute is given: a value in which handles stand for instances. -/
inductive Given where
  | null
  | bool (value : Bool)
  | int (value : Int)
  | float (value : Float)
  | text (value : String)
  | object (typeName : String) (properties : List (String × Given)) (text : String)
  | sequence (items : List Given)
  | map (entries : List (String × Given))
  | held (id : String)

namespace Given

mutual

/-- The value, with null for handles that are not held. -/
def value (instances : String → Option Instance) : Given → Value
  | .null => .null
  | .bool b => .bool b
  | .int n => .int n
  | .float x => .float x
  | .text s => .text s
  | .object typeName properties s => .object typeName (Dict.ofList (entriesValue instances properties)) s
  | .sequence items => .sequence (itemsValue instances items)
  | .map entries => .map (Dict.ofList (entriesValue instances entries))
  | .held id => ((instances id).map Value.template).getD .null

def itemsValue (instances : String → Option Instance) : List Given → List Value
  | [] => []
  | v :: vs => v.value instances :: itemsValue instances vs

def entriesValue (instances : String → Option Instance) : List (String × Given) → List (String × Value)
  | [] => []
  | (key, v) :: es => (key, v.value instances) :: entriesValue instances es

end

mutual

/-- The handles that stand in it. -/
def handles : Given → List String
  | .object _ properties _ => entriesHandles properties
  | .sequence items => itemsHandles items
  | .map entries => entriesHandles entries
  | .held id => [id]
  | _ => []

def itemsHandles : List Given → List String
  | [] => []
  | v :: vs => v.handles ++ itemsHandles vs

def entriesHandles : List (String × Given) → List String
  | [] => []
  | (_, v) :: es => v.handles ++ entriesHandles es

end

end Given

/-! ## Building and asking -/

/-- What a host is answered. -/
inductive Answer where
  | done
  /-- There is no such handle. -/
  | unknown
  | refused (e : GroupError)
  | rejected (e : AttributeError)
  | template (program : Program)
  | text (text : String)
  | count (n : Nat)
  | names (names : List String)
  | source (source : Option String)
  | written (count : Nat) (text : String)

/-- What makes a group, or changes one that is held. -/
inductive Building where
  | create (id name : String)
  | clone (group id : String)
  | define (group name : String) (formals : Formals) (source : String)
  | importing (group other : String)
  | listening (group : String) (listener : Listener)
  | registering (group : String) (kind : ScalarKind) (renderer : Renderer)

namespace Building

/-- The handle of the group that is made or changed. -/
def target : Building → String
  | .create id _ | .clone _ id => id
  | .define group _ _ _ | .importing group _ | .listening group _ | .registering group _ _ => group

/-- A group that is made of one that is held. -/
def change (f : Group → Group) : Option Group → Except Answer Group
  | some g => .ok (f g)
  | none => .error .unknown

/-- The group that is made. -/
def make (groups : String → Option Group) : Building → StateM Workspace (Except Answer Group)
  | .create _ name => return .ok (.empty name)
  | .clone group _ => return change id (groups group)
  | .define group name formals source =>
    match groups group with
    | some g => return (← g.define name formals source).mapError .refused
    | none => return .error .unknown
  | .importing group other =>
    match groups other with
    | some h => return change (·.importing h) (groups group)
    | none => return .error .unknown
  | .listening group listener => return change (·.listeningAt listener) (groups group)
  | .registering group kind renderer => return change (·.registering kind renderer) (groups group)

end Building

/-- What is asked of a group or an instance. -/
inductive Observation where
  | lookup (group name : String)
  | disassemble (group name : String)
  | compileAll (group : String)
  | names (group : String)
  | sourceOf (group name : String)
  | instantiate (group id name : String)
  | improvise (group id source : String)
  | set (id name : String) (value : Given)
  | append (id name : String) (value : Given)
  | render (id : String) (interpreter : Interpreter) (room : Option Nat)

namespace Observation

/-- The handle of the instance that is made or changed, or else of what is asked. -/
def target : Observation → String
  | .lookup group _ | .disassemble group _ | .compileAll group | .names group | .sourceOf group _ => group
  | .instantiate _ id _ | .improvise _ id _ | .set id _ _ | .append id _ _ | .render id _ _ => id

/-- All handles that are used. -/
def handles : Observation → List String
  | .lookup group _ | .disassemble group _ | .compileAll group | .names group | .sourceOf group _ => [group]
  | .instantiate group id _ | .improvise group id _ => [group, id]
  | .set id _ value | .append id _ value => id :: value.handles
  | .render id _ _ => [id]

/-- The answer, and the instance that is made or changed. -/
def ask (groups : String → Option Group) (instances : String → Option Instance) :
    Observation → StateM Workspace (Answer × Option Instance)
  | .lookup group name => asking (groups group) fun g => do
    match ← g.lookup name with
    | .ok (_, program) => return (.template program, none)
    | .error e => return (.refused e, none)
  | .disassemble group name => asking (groups group) fun g => do
    match ← g.lookup name with
    | .ok (_, program) => return (.text program.listing, none)
    | .error e => return (.refused e, none)
  | .compileAll group => asking (groups group) fun g => do
    match ← g.compileAll with
    | .ok n => return (.count n, none)
    | .error e => return (.refused e, none)
  | .names group => asking (groups group) fun g => return (.names g.visibleNames, none)
  | .sourceOf group name => asking (groups group) fun g => return (.source (g.sourceOf? name), none)
  | .instantiate group _ name => asking (groups group) fun g => do
    match ← g.lookup name with
    | .ok (native, program) => return (.text program.name, some (.ofProgram g native program none))
    | .error e => return (.refused e, none)
  | .improvise group _ source => asking (groups group) fun g => do
    match ← g.compileSource source with
    | .ok program => return (.text program.name, some (.ofProgram g g program none))
    | .error e => return (.refused e, none)
  | .set id name value => asking (instances id) fun i =>
    match i.set name (value.value instances) with
    | .ok i => return (.done, some i)
    | .error e => return (.rejected e, none)
  | .append id name value => asking (instances id) fun i =>
    match i.append name (value.value instances) with
    | .ok i => return (.done, some i)
    | .error e => return (.rejected e, none)
  | .render id interpreter room => asking (instances id) fun i => do
    let (count, text) ← interpreter.renderTo room i
    return (.written count text, none)
where
  /-- Asks what a handle stands for. -/
  asking {α : Type} (held : Option α) (f : α → StateM Workspace (Answer × Option Instance)) :
      StateM Workspace (Answer × Option Instance) :=
    match held with
    | some a => f a
    | none => return (.unknown, none)

end Observation

inductive Action where
  | build (b : Building)
  | observe (o : Observation)

namespace Action

def target : Action → String
  | .build b => b.target
  | .observe o => o.target

def isBuilding : Action → Bool
  | .build _ => true
  | .observe _ => false

/-- Whether an action makes or changes what belongs to one side, or else asks the other side and uses
nothing of the one. -/
def respects (side : String → Bool) : Action → Bool
  | .build b => side b.target
  | .observe o => side o.target || o.handles.all fun id => !side id

end Action

/-! ## Hosts -/

structure Host where
  groups : Handles Group
  instances : Handles Instance
  workspace : Workspace

mutual

/-- The groups in which the templates that a value holds look up what they call. -/
def Value.groups : Value → List Group
  | .object _ properties _ => Entries.groups properties
  | .sequence items => Items.groups items
  | .map entries => Entries.groups entries
  | .template bound => bound.groups
  | _ => []

def Items.groups : List Value → List Group
  | [] => []
  | v :: vs => v.groups ++ Items.groups vs

def Entries.groups : List (String × Value) → List Group
  | [] => []
  | (_, v) :: es => v.groups ++ Entries.groups es

def Instance.groups : Instance → List Group
  | ⟨group, home, _, attributes, _⟩ => group.tree ++ home.tree ++ Entries.groups attributes

end

namespace Host

def empty : Host := ⟨[], [], .empty⟩

def group? (h : Host) (id : String) : Option Group := h.groups.lookup id

def instance? (h : Host) (id : String) : Option Instance := h.instances.lookup id

def build (h : Host) (b : Building) : Answer × Host :=
  let (made, workspace) := (b.make h.group?).run h.workspace
  (match made with
    | .ok _ => .done
    | .error a => a,
    ⟨Handles.update b.target made.toOption h.groups, h.instances, workspace⟩)

def observe (h : Host) (o : Observation) : Answer × Host :=
  let ((answer, made), workspace) := (o.ask h.group? h.instance?).run h.workspace
  (answer, ⟨h.groups, Handles.update o.target made h.instances, workspace⟩)

theorem observe_run {h : Host} {o : Observation} {answer : Answer} {made : Option Instance} {w : Workspace}
    (hr : (o.ask h.group? h.instance?).run h.workspace = ((answer, made), w)) :
    h.observe o = (answer, ⟨h.groups, Handles.update o.target made h.instances, w⟩) := by
  rw [observe, hr]

theorem observe_instance? (h : Host) (o : Observation) (id : String) : (h.observe o).2.instance? id =
    (Handles.update o.target ((o.ask h.group? h.instance?).run h.workspace).1.2 h.instances).lookup id := rfl

theorem build_group? (h : Host) (b : Building) (id : String) : (h.build b).2.group? id =
    (Handles.update b.target ((b.make h.group?).run h.workspace).1.toOption h.groups).lookup id := rfl

def perform (h : Host) : Action → Answer × Host
  | .build b => h.build b
  | .observe o => h.observe o

/-- The host after a history. -/
def after (h : Host) : List Action → Host
  | [] => h
  | a :: as => (h.perform a).2.after as

/-- The answers to those actions of a history that are of interest. -/
def answers (h : Host) (wanted : Action → Bool) : List Action → List Answer
  | [] => []
  | a :: as =>
    let (answer, h) := h.perform a
    if wanted a then answer :: h.answers wanted as else h.answers wanted as

theorem answers_cons (h : Host) (wanted : Action → Bool) (a : Action) (as : List Action) :
    h.answers wanted (a :: as) =
      if wanted a then (h.perform a).1 :: (h.perform a).2.answers wanted as
      else (h.perform a).2.answers wanted as := rfl

/-- All groups that a host holds apart from that under a handle, also those that instances hold. -/
def beside (h : Host) (id : String) : List Group :=
  (h.groups.filter fun e => e.1 != id).flatMap (fun e => e.2.tree) ++ h.instances.flatMap fun e => e.2.groups

/-- Whether an import comes in time for the definitions that it mends: nothing was kept of compiling them
before, and no other group shares what will be kept. Unlike a definition, an import does not have
them compiled anew. -/
def isTimely (h : Host) (id : String) (g other : Group) : Bool :=
  (g.mendedBy other).all fun slot => (h.workspace.outcome? slot).isNone &&
    (h.beside id ++ Group.treeIn (g.importing other).imports).all fun x => x.templates.all fun e => e.2.slot != slot

/-- Whether imports come in time. -/
def allows (h : Host) : Action → Bool
  | .build (.importing group other) =>
    match h.group? group, h.group? other with
    | some g, some k => h.isTimely group g k
    | _, _ => true
  | _ => true

/-- Whether all imports of a history come in time. -/
def allowsAll (h : Host) : List Action → Bool
  | [] => true
  | a :: as => h.allows a && (h.perform a).2.allowsAll as

end Host

end Stencil
