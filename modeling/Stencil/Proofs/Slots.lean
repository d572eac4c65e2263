import Stencil.Group.Workspace
/-! Groups apart from the slots of their definitions. Slots say where outcomes are kept, and nothing that
a group is asked depends on them. -/

namespace Stencil

namespace Dict

variable {α β : Type}

/-- The same keys with other values. -/
def mapValues (f : α → β) (d : Dict α) : Dict β := d.map fun e => (e.1, f e.2)

theorem find?_mapValues (f : α → β) (key : String) : (d : Dict α) →
    find? (mapValues f d) key = (find? d key).map f
  | [] => rfl
  | (k, v) :: rest => by
      have ih := find?_mapValues f key rest
      unfold find? mapValues at *
      rw [List.map_cons, List.lookup_cons, List.lookup_cons, ih]
      cases key == k <;> rfl

theorem keys_mapValues (f : α → β) (d : Dict α) : keys (mapValues f d) = keys d := by
  unfold keys mapValues
  rw [List.map_map]
  rfl

theorem contains_mapValues (f : α → β) (d : Dict α) (key : String) :
    contains (mapValues f d) key = contains d key := by
  rw [contains, contains, find?_mapValues, Option.isSome_map]

theorem insert_mapValues (f : α → β) (key : String) (value : α) : (d : Dict α) →
    mapValues f (insert key value d) = insert key (f value) (mapValues f d)
  | [] => rfl
  | (k, v) :: rest => by
      have ih := insert_mapValues f key value rest
      unfold mapValues at *
      rw [insert, List.map_cons, insert]
      split
      · rfl
      · split
        · rfl
        · rw [List.map_cons, ih]

end Dict

/-- A definition without its slot. -/
def Definition.unslotted (d : Definition) : Definition := { d with slot := 0 }

namespace Group

mutual

/-- A group without the slots of its definitions and of those that it imports. -/
def unslotted : Group → Group
  | ⟨group, templates, imports, listener, renderers⟩ =>
    ⟨group, Dict.mapValues Definition.unslotted templates, unslottedIn imports, listener, renderers⟩

def unslottedIn : List Group → List Group
  | [] => []
  | g :: gs => g.unslotted :: unslottedIn gs

end

theorem unslottedIn_append : (gs hs : List Group) → unslottedIn (gs ++ hs) = unslottedIn gs ++ unslottedIn hs
  | [], _ => rfl
  | g :: gs, hs => congrArg (g.unslotted :: ·) (unslottedIn_append gs hs)

/-- What was found, without slots. -/
def unslottedFound (found : Group × Definition) : Group × Definition := (found.1.unslotted, found.2.unslotted)

mutual

theorem find?_unslotted (name : String) : (g : Group) →
    g.unslotted.find? name = (g.find? name).map unslottedFound
  | ⟨group, templates, imports, listener, renderers⟩ => by
      rw [unslotted, find?, find?, Dict.find?_mapValues, findIn?_unslotted name imports]
      cases Dict.find? templates name <;> rfl

theorem findIn?_unslotted (name : String) : (gs : List Group) →
    findIn? name (unslottedIn gs) = (findIn? name gs).map unslottedFound
  | [] => rfl
  | g :: gs => by
      rw [unslottedIn, findIn?, findIn?, find?_unslotted name g, findIn?_unslotted name gs]
      cases g.find? name <;> rfl

end

mutual

theorem allNames_unslotted : (g : Group) → g.unslotted.allNames = g.allNames
  | ⟨_, templates, imports, _, _⟩ => by
      rw [unslotted, allNames, allNames, Dict.keys_mapValues, allNamesIn_unslotted imports]

theorem allNamesIn_unslotted : (gs : List Group) → allNamesIn (unslottedIn gs) = allNamesIn gs
  | [] => rfl
  | g :: gs => by
      rw [unslottedIn, allNamesIn, allNamesIn, allNames_unslotted g, allNamesIn_unslotted gs]

end

theorem visibleNames_unslotted (g : Group) : g.unslotted.visibleNames = g.visibleNames := by
  rw [visibleNames, visibleNames, allNames_unslotted]

theorem findInherited?_unslotted (g : Group) (name : String) :
    g.unslotted.findInherited? name = (g.findInherited? name).map unslottedFound := by
  cases g with
  | mk group templates imports listener renderers => exact findIn?_unslotted name imports

theorem directory_unslotted (g : Group) : g.unslotted.directory = g.directory := by
  have hown : g.unslotted.formalsOf? = g.formalsOf? := funext fun name => by
    rw [formalsOf?, formalsOf?, find?_unslotted, Option.map_map]
    rfl
  have hinherited : g.unslotted.inheritedFormalsOf? = g.inheritedFormalsOf? := funext fun name => by
    rw [inheritedFormalsOf?, inheritedFormalsOf?, findInherited?_unslotted, Option.map_map]
    rfl
  rw [directory, directory, hown, hinherited, visibleNames_unslotted]

/-! ## Defining -/

/-- Why a definition is refused. -/
def refusal? (g : Group) (name : String) (formals : Formals) : Option GroupError :=
  if !isName name then some (.invalidName name)
  else if Dict.contains g.templates name then some (.redefinition g.name name)
  else formals.duplicate?.map (.duplicateParameter name)

theorem refusal?_unslotted (g : Group) (name : String) (formals : Formals) :
    g.unslotted.refusal? name formals = g.refusal? name formals := by
  cases g with
  | mk group templates imports listener renderers =>
    rw [refusal?, refusal?, unslotted, Dict.contains_mapValues]

/-- The group with a definition of a slot among others. -/
def defining (g : Group) (name : String) (formals : Formals) (source : String) (slot : Nat)
    (templates : List (String × Definition)) : Group :=
  { g with templates := Dict.insert name ⟨formals, source, slot⟩ templates }

theorem define_run (g : Group) (name : String) (formals : Formals) (source : String) (w : Workspace) :
    (g.define name formals source).run w =
      match g.refusal? name formals with
      | some e => (.error e, w)
      | none =>
        (.ok (g.defining name formals source ((renewEach g.templates).run w).2.slots.size
          ((renewEach g.templates).run w).1), ((renewEach g.templates).run w).2.allocate.2) := by
  unfold define refusal?
  cases isName name with
  | false => rfl
  | true =>
    cases Dict.contains g.templates name with
    | true => rfl
    | false => cases formals.duplicate? <;> rfl

/-- A definition that a group accepted is its own one. -/
theorem define_ok {g₀ g₁ : Group} {name source : String} {formals : Formals} {w₀ w₁ : Workspace}
    (h : (g₀.define name formals source).run w₀ = (.ok g₁, w₁)) : isName name = true ∧
      ∃ d, Dict.find? g₁.templates name = some d ∧ d.formals = formals ∧ d.source = source := by
  rw [define_run] at h
  cases hr : g₀.refusal? name formals with
  | some e =>
    rw [hr] at h
    cases h
  | none =>
    rw [hr] at h
    cases h
    refine ⟨?_, _, Dict.find?_insert_self _ _ _, rfl, rfl⟩
    rw [refusal?] at hr
    cases hname : isName name with
    | true => rfl
    | false =>
      rw [hname] at hr
      cases hr

theorem renewEach_cons (name : String) (d : Definition) (rest : List (String × Definition)) (w : Workspace) :
    (renewEach ((name, d) :: rest)).run w =
      ((name, { d with slot := (w.renew d.slot).1 }) :: ((renewEach rest).run (w.renew d.slot).2).1,
        ((renewEach rest).run (w.renew d.slot).2).2) := rfl

/-- Definitions that are renewed get other slots at most. -/
theorem renewEach_unslotted (w : Workspace) : (es : List (String × Definition)) →
    Dict.mapValues Definition.unslotted ((renewEach es).run w).1 = Dict.mapValues Definition.unslotted es
  | [] => rfl
  | (name, d) :: rest => by
      have ih := renewEach_unslotted (w.renew d.slot).2 rest
      rw [renewEach_cons]
      exact congrArg ((name, d.unslotted) :: ·) ih

/-- A group that gets a definition is the same but for slots, wherever the outcomes are kept. -/
theorem defining_unslotted {g g' : Group} (h : g.unslotted = g'.unslotted) (name : String) (formals : Formals)
    (source : String) {slot slot' : Nat} {es es' : List (String × Definition)}
    (he : Dict.mapValues Definition.unslotted es = Dict.mapValues Definition.unslotted g.templates)
    (he' : Dict.mapValues Definition.unslotted es' = Dict.mapValues Definition.unslotted g'.templates) :
    (g.defining name formals source slot es).unslotted = (g'.defining name formals source slot' es').unslotted := by
  cases g with
  | mk group templates imports listener renderers =>
    cases g' with
    | mk group' templates' imports' listener' renderers' =>
      rw [unslotted, unslotted, Group.mk.injEq] at h
      obtain ⟨rfl, ht, hi, rfl, rfl⟩ := h
      rw [defining, defining, unslotted, unslotted, Dict.insert_mapValues, Dict.insert_mapValues, he, he', ht, hi]
      rfl

end Group

end Stencil
