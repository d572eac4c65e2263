import Mathlib.Data.List.Forall2
import Stencil.Value.Builtin
/-! Values of two renders that are alike: they differ at most in the templates that they hold, where
those are related in a given way. What templates do with values keeps them alike. -/

namespace Stencil

/-- An instance without its attributes. -/
def Instance.bare (i : Instance) : Instance := { i with attributes := [] }

mutual

/-- Values that are equal but for templates in them, which have alike attributes and are related by
`I` otherwise. -/
inductive Value.Alike (I : Instance → Instance → Prop) : Value → Value → Prop where
  | null : Value.Alike I .null .null
  | bool (b : Bool) : Value.Alike I (.bool b) (.bool b)
  | int (n : Int) : Value.Alike I (.int n) (.int n)
  | float (x : Float) : Value.Alike I (.float x) (.float x)
  | text (s : String) : Value.Alike I (.text s) (.text s)
  | object (typeName s : String) {ps ps'} : Entries.Alike I ps ps' →
      Value.Alike I (.object typeName ps s) (.object typeName ps' s)
  | sequence {vs vs'} : Items.Alike I vs vs' → Value.Alike I (.sequence vs) (.sequence vs')
  | map {es es'} : Entries.Alike I es es' → Value.Alike I (.map es) (.map es')
  | template {i i'} : Instance.Alike I i i' → Value.Alike I (.template i) (.template i')

inductive Items.Alike (I : Instance → Instance → Prop) : List Value → List Value → Prop where
  | nil : Items.Alike I [] []
  | cons {v v' vs vs'} : Value.Alike I v v' → Items.Alike I vs vs' →
      Items.Alike I (v :: vs) (v' :: vs')

inductive Entries.Alike (I : Instance → Instance → Prop) :
    List (String × Value) → List (String × Value) → Prop where
  | nil : Entries.Alike I [] []
  | cons (key : String) {v v' es es'} : Value.Alike I v v' → Entries.Alike I es es' →
      Entries.Alike I ((key, v) :: es) ((key, v') :: es')

inductive Instance.Alike (I : Instance → Instance → Prop) : Instance → Instance → Prop where
  | mk {i i'} : I i.bare i'.bare → Entries.Alike I i.attributes i'.attributes →
      Instance.Alike I i i'

end

variable {I J : Instance → Instance → Prop}

/-! ## Alike values under different relations -/

mutual

theorem Value.Alike.mono (h : ∀ i i', I i i' → J i i') : {v v' : Value} → v.Alike I v' → v.Alike J v'
  | _, _, .null => .null
  | _, _, .bool b => .bool b
  | _, _, .int n => .int n
  | _, _, .float x => .float x
  | _, _, .text s => .text s
  | _, _, .object t s hp => .object t s (Entries.Alike.mono h hp)
  | _, _, .sequence hv => .sequence (Items.Alike.mono h hv)
  | _, _, .map he => .map (Entries.Alike.mono h he)
  | _, _, .template hi => .template (Instance.Alike.mono h hi)

theorem Items.Alike.mono (h : ∀ i i', I i i' → J i i') :
    {vs vs' : List Value} → Items.Alike I vs vs' → Items.Alike J vs vs'
  | _, _, .nil => .nil
  | _, _, .cons hv hvs => .cons (Value.Alike.mono h hv) (Items.Alike.mono h hvs)

theorem Entries.Alike.mono (h : ∀ i i', I i i' → J i i') :
    {es es' : List (String × Value)} → Entries.Alike I es es' → Entries.Alike J es es'
  | _, _, .nil => .nil
  | _, _, .cons k hv hes => .cons k (Value.Alike.mono h hv) (Entries.Alike.mono h hes)

theorem Instance.Alike.mono (h : ∀ i i', I i i' → J i i') :
    {i i' : Instance} → i.Alike I i' → i.Alike J i'
  | _, _, .mk hi ha => .mk (h _ _ hi) (Entries.Alike.mono h ha)

end

mutual

theorem Value.Alike.refl (h : ∀ i, I i i) : (v : Value) → v.Alike I v
  | .null => .null
  | .bool b => .bool b
  | .int n => .int n
  | .float x => .float x
  | .text s => .text s
  | .object t ps s => .object t s (Entries.Alike.refl h ps)
  | .sequence vs => .sequence (Items.Alike.refl h vs)
  | .map es => .map (Entries.Alike.refl h es)
  | .template i => .template (Instance.Alike.refl h i)

theorem Items.Alike.refl (h : ∀ i, I i i) : (vs : List Value) → Items.Alike I vs vs
  | [] => .nil
  | v :: vs => .cons (Value.Alike.refl h v) (Items.Alike.refl h vs)

theorem Entries.Alike.refl (h : ∀ i, I i i) : (es : List (String × Value)) → Entries.Alike I es es
  | [] => .nil
  | (k, v) :: es => .cons k (Value.Alike.refl h v) (Entries.Alike.refl h es)

theorem Instance.Alike.refl (h : ∀ i, I i i) : (i : Instance) → i.Alike I i
  | ⟨_, _, _, as, _⟩ => .mk (h _) (Entries.Alike.refl h as)

end

mutual

/-- Values that hold equal templates are equal. -/
theorem Value.Alike.eq : {v v' : Value} → v.Alike Eq v' → v = v'
  | _, _, .null => rfl
  | _, _, .bool _ => rfl
  | _, _, .int _ => rfl
  | _, _, .float _ => rfl
  | _, _, .text _ => rfl
  | _, _, .object _ _ hp => by rw [Entries.Alike.eq hp]
  | _, _, .sequence hv => by rw [Items.Alike.eq hv]
  | _, _, .map he => by rw [Entries.Alike.eq he]
  | _, _, .template hi => by rw [Instance.Alike.eq hi]

theorem Items.Alike.eq : {vs vs' : List Value} → Items.Alike Eq vs vs' → vs = vs'
  | _, _, .nil => rfl
  | _, _, .cons hv hvs => by rw [Value.Alike.eq hv, Items.Alike.eq hvs]

theorem Entries.Alike.eq : {es es' : List (String × Value)} → Entries.Alike Eq es es' → es = es'
  | _, _, .nil => rfl
  | _, _, .cons _ hv hes => by rw [Value.Alike.eq hv, Entries.Alike.eq hes]

theorem Instance.Alike.eq : {i i' : Instance} → i.Alike Eq i' → i = i'
  | ⟨_, _, _, _, _⟩, ⟨_, _, _, _, _⟩, .mk hi ha => by
      simp only [Instance.bare, Instance.mk.injEq, true_and] at hi
      obtain ⟨rfl, rfl, rfl, rfl⟩ := hi
      exact congrArg (Instance.mk _ _ _ · _) (Entries.Alike.eq ha)

end

/-- A value that may be missing is like itself. -/
theorem Value.Alike.refl_option (h : ∀ i, I i i) : (v : Option Value) → Option.Rel (Value.Alike I) v v
  | none => .none
  | some v => .some (.refl h v)

/-! ## Lists of alike values -/

theorem getElem?_rel {α β : Type} {P : α → β → Prop} : {as : List α} → {bs : List β} →
    List.Forall₂ P as bs → (n : Nat) → Option.Rel P as[n]? bs[n]?
  | _, _, .nil, _ => .none
  | _, _, .cons h _, 0 => .some h
  | _, _, .cons _ h, n + 1 => getElem?_rel h n

theorem Value.Alike.template? {v v' : Value} (h : v.Alike I v') :
    Option.Rel (Instance.Alike I) v.template? v'.template? := by
  cases h with
  | template hi => exact .some hi
  | _ => exact .none

namespace Items.Alike

variable {vs vs' ws ws' : List Value}

theorem forall₂ : {vs vs' : List Value} → Items.Alike I vs vs' → List.Forall₂ (Value.Alike I) vs vs'
  | _, _, .nil => .nil
  | _, _, .cons hv hvs => .cons hv hvs.forall₂

theorem of_forall₂ : {vs vs' : List Value} → List.Forall₂ (Value.Alike I) vs vs' → Items.Alike I vs vs'
  | _, _, .nil => .nil
  | _, _, .cons hv hvs => .cons hv (of_forall₂ hvs)

theorem length_eq (h : Items.Alike I vs vs') : vs.length = vs'.length := h.forall₂.length_eq

theorem append : {vs vs' : List Value} → Items.Alike I vs vs' → Items.Alike I ws ws' →
    Items.Alike I (vs ++ ws) (vs' ++ ws')
  | _, _, .nil, h => h
  | _, _, .cons hv hvs, h => .cons hv (hvs.append h)

theorem reverse (h : Items.Alike I vs vs') : Items.Alike I vs.reverse vs'.reverse :=
  of_forall₂ (List.forall₂_reverse_iff.mpr h.forall₂)

theorem templates : {vs vs' : List Value} → Items.Alike I vs vs' →
    List.Forall₂ (Option.Rel (Instance.Alike I)) (vs.map Value.template?) (vs'.map Value.template?)
  | _, _, .nil => .nil
  | _, _, .cons hv hvs => .cons hv.template? hvs.templates

theorem take (n : Nat) (h : Items.Alike I vs vs') : Items.Alike I (vs.take n) (vs'.take n) :=
  of_forall₂ (List.forall₂_take n h.forall₂)

theorem drop (n : Nat) (h : Items.Alike I vs vs') : Items.Alike I (vs.drop n) (vs'.drop n) :=
  of_forall₂ (List.forall₂_drop n h.forall₂)

theorem dropLast (h : Items.Alike I vs vs') : Items.Alike I vs.dropLast vs'.dropLast := by
  rw [List.dropLast_eq_take, List.dropLast_eq_take, h.length_eq]
  exact h.take _

theorem getElem? (h : Items.Alike I vs vs') (n : Nat) :
    Option.Rel (Value.Alike I) vs[n]? vs'[n]? := getElem?_rel h.forall₂ n

theorem headD (h : Items.Alike I vs vs') : (vs.headD .null).Alike I (vs'.headD .null) := by
  cases h with
  | nil => exact .null
  | cons hv _ => exact hv

theorem getLastD (h : Items.Alike I vs vs') : (vs.getLastD .null).Alike I (vs'.getLastD .null) := by
  rw [List.getLastD_eq_getLast?, List.getLastD_eq_getLast?, List.getLast?_eq_head?_reverse,
    List.getLast?_eq_head?_reverse, ← List.headD_eq_head?_getD, ← List.headD_eq_head?_getD]
  exact h.reverse.headD

theorem texts : (keys : List String) → Items.Alike I (keys.map Value.text) (keys.map Value.text)
  | [] => .nil
  | key :: keys => .cons (.text key) (texts keys)

end Items.Alike

namespace Entries.Alike

variable {es es' : List (String × Value)}

theorem keys_eq : {es es' : List (String × Value)} → Entries.Alike I es es' →
    Dict.keys es = Dict.keys es'
  | _, _, .nil => rfl
  | _, _, .cons key _ hes => congrArg (key :: ·) hes.keys_eq

theorem length_eq (h : Entries.Alike I es es') : es.length = es'.length := by
  simpa [Dict.keys] using congrArg List.length h.keys_eq

theorem values : {es es' : List (String × Value)} → Entries.Alike I es es' →
    Items.Alike I (Dict.values es) (Dict.values es')
  | _, _, .nil => .nil
  | _, _, .cons _ hv hes => .cons hv hes.values

theorem lookup (key : String) : {es es' : List (String × Value)} → Entries.Alike I es es' →
    Option.Rel (Value.Alike I) (es.lookup key) (es'.lookup key)
  | _, _, .nil => .none
  | _, _, .cons k hv hes => by
      cases hk : key == k with
      | true => simpa [List.lookup_cons, hk] using Option.Rel.some hv
      | false => simpa [List.lookup_cons, hk] using hes.lookup key

theorem insert (key : String) {v v' : Value} (h : v.Alike I v') (hes : Entries.Alike I es es') :
    Entries.Alike I (Dict.insert key v es) (Dict.insert key v' es') := by
  induction es generalizing es' with
  | nil =>
    cases hes
    exact .cons key h .nil
  | cons e es ih =>
    cases hes with
    | cons k hv hes =>
      rw [Dict.insert, Dict.insert]
      split
      · exact .cons key h (.cons k hv hes)
      · split
        · exact .cons key h hes
        · exact .cons k hv (ih hes)

end Entries.Alike

theorem Instance.Alike.bind {i i' : Instance} (h : i.Alike I i') (name : String) {v v' : Value}
    (hv : v.Alike I v') : (i.bind name v).Alike I (i'.bind name v') := by
  cases h with
  | mk hi ha => exact .mk hi (ha.insert name hv)

theorem Value.Alike.getD {o o' : Option Value} (h : Option.Rel (Value.Alike I) o o') :
    (o.getD .null).Alike I (o'.getD .null) := by
  cases h with
  | some hv => exact hv
  | none => exact .null

theorem Instance.Alike.get {i i' : Instance} (h : i.Alike I i') (name : String) :
    (i.get name).Alike I (i'.get name) := by
  cases h with
  | mk _ ha => exact Value.Alike.getD (ha.lookup name)

theorem Instance.Alike.program_eq {i i' : Instance} (h : i.Alike I i')
    (hI : ∀ i i', I i i' → i.program = i'.program) : i.program = i'.program := by
  cases h with
  | mk hi _ => exact (hI _ _ hi :)

/-! ## What templates do with alike values -/

namespace Value.Alike

variable {v v' : Value}

theorem isNull_eq (h : v.Alike I v') : v.isNull = v'.isNull := by cases h <;> rfl

theorem isTruthy_eq (h : v.Alike I v') : v.isTruthy = v'.isTruthy := by
  cases h with
  | sequence hv => cases hv <;> rfl
  | map he => cases he <;> rfl
  | _ => rfl

theorem int?_eq (h : v.Alike I v') : v.int? = v'.int? := by cases h <;> rfl

theorem text?_eq (h : v.Alike I v') : v.text? = v'.text? := by cases h <;> rfl

theorem isMultiple_eq (h : v.Alike I v') : v.isMultiple = v'.isMultiple := by cases h <;> rfl

theorem ofNat (n : Nat) : (Value.ofNat n).Alike I (Value.ofNat n) := by
  rw [Value.ofNat]
  split
  · exact .int _
  · exact .float _

theorem elements (h : v.Alike I v') : Items.Alike I v.elements v'.elements := by
  cases h with
  | null => exact .nil
  | sequence hv => exact hv
  | map he =>
    rw [Value.elements, Value.elements, he.keys_eq]
    exact .texts _
  | bool b => exact .cons (.bool b) .nil
  | int n => exact .cons (.int n) .nil
  | float x => exact .cons (.float x) .nil
  | text s => exact .cons (.text s) .nil
  | object t s hp => exact .cons (.object t s hp) .nil
  | template hi => exact .cons (.template hi) .nil

theorem parts? (h : v.Alike I v') : Option.Rel (Items.Alike I) v.parts? v'.parts? := by
  cases h with
  | sequence hv => exact .some hv
  | map he =>
    rw [Value.parts?, Value.parts?, he.keys_eq]
    exact .some (.texts _)
  | _ => exact .none

theorem sequenceOrNull {vs vs' : List Value} (h : Items.Alike I vs vs') :
    (Value.sequenceOrNull vs).Alike I (Value.sequenceOrNull vs') := by
  cases h with
  | nil => exact .null
  | cons hv hvs => exact .sequence (.cons hv hvs)

theorem partsOrNone {o o' : Option (List Value)} (h : Option.Rel (Items.Alike I) o o') :
    Items.Alike I (o.getD []) (o'.getD []) := by
  cases h with
  | some hi => exact hi
  | none => exact .nil

theorem first (h : v.Alike I v') : v.first.Alike I v'.first := by
  have hp := h.parts?
  unfold Value.first
  generalize v.parts? = o, v'.parts? = o' at hp
  cases hp with
  | some hi => exact hi.headD
  | none => exact h

theorem last (h : v.Alike I v') : v.last.Alike I v'.last := by
  have hp := h.parts?
  unfold Value.last
  generalize v.parts? = o, v'.parts? = o' at hp
  cases hp with
  | some hi => exact hi.getLastD
  | none => exact h

theorem reverse (h : v.Alike I v') : v.reverse.Alike I v'.reverse := by
  have hp := h.parts?
  unfold Value.reverse
  generalize v.parts? = o, v'.parts? = o' at hp
  cases hp with
  | some hi => exact .sequence hi.reverse
  | none => exact h

theorem rest (h : v.Alike I v') : v.rest.Alike I v'.rest :=
  sequenceOrNull ((partsOrNone h.parts?).drop 1)

theorem trunc (h : v.Alike I v') : v.trunc.Alike I v'.trunc :=
  sequenceOrNull (partsOrNone h.parts?).dropLast

theorem nonNull : {vs vs' : List Value} → Items.Alike I vs vs' →
    Items.Alike I (vs.filter fun v => !v.isNull) (vs'.filter fun v => !v.isNull)
  | _, _, .nil => .nil
  | v :: _, _, .cons hv hvs => by
      rw [List.filter_cons, List.filter_cons, ← hv.isNull_eq]
      split
      · exact .cons hv (nonNull hvs)
      · exact nonNull hvs

theorem strip (h : v.Alike I v') : v.strip.Alike I v'.strip := by
  cases h with
  | sequence hv => exact .sequence (nonNull hv)
  | null => exact .null
  | bool b => exact .bool b
  | int n => exact .int n
  | float x => exact .float x
  | text s => exact .text s
  | object t s hp => exact .object t s hp
  | map he => exact .map he
  | template hi => exact .template hi

theorem length_eq (h : v.Alike I v') : v.length = v'.length := by
  cases h with
  | sequence hv => exact hv.length_eq
  | map he => exact he.length_eq
  | _ => rfl

/-- The functions of templates keep values alike. -/
theorem apply (f : Builtin) (h : v.Alike I v') : (Value.apply f v).Alike I (Value.apply f v') := by
  cases f with
  | first => exact h.first
  | last => exact h.last
  | rest => exact h.rest
  | trunc => exact h.trunc
  | strip => exact h.strip
  | length => rw [Value.apply, Value.apply, h.length_eq]; exact ofNat _
  | strlen => rw [Value.apply, Value.apply, h.text?_eq]; exact ofNat _
  | trim =>
    cases h with
    | text s => exact .text _
    | null => exact .null
    | bool b => exact .bool b
    | int n => exact .int n
    | float x => exact .float x
    | object t s hp => exact .object t s hp
    | sequence hv => exact .sequence hv
    | map he => exact .map he
    | template hi => exact .template hi
  | reverse => exact h.reverse

theorem listItems (h : v.Alike I v') : Items.Alike I v.listItems v'.listItems := by
  cases h with
  | null => exact .nil
  | sequence hv => exact nonNull hv
  | bool b => exact .cons (.bool b) .nil
  | int n => exact .cons (.int n) .nil
  | float x => exact .cons (.float x) .nil
  | text s => exact .cons (.text s) .nil
  | object t s hp => exact .cons (.object t s hp) .nil
  | map he => exact .cons (.map he) .nil
  | template hi => exact .cons (.template hi) .nil

theorem flatItems : {vs vs' : List Value} → Items.Alike I vs vs' →
    Items.Alike I (vs.flatMap Value.listItems) (vs'.flatMap Value.listItems)
  | _, _, .nil => .nil
  | _, _, .cons hv hvs => hv.listItems.append (flatItems hvs)

theorem list {vs vs' : List Value} (h : Items.Alike I vs vs') :
    (Value.list vs).Alike I (Value.list vs') := .sequence (flatItems h)

end Value.Alike

/-- What comes of reading a property: alike values, or the same error. -/
inductive PropertyAlike (I : Instance → Instance → Prop) :
    Except PropertyError Value → Except PropertyError Value → Prop where
  | ok {v v'} : Value.Alike I v v' → PropertyAlike I (.ok v) (.ok v')
  | error (e : PropertyError) : PropertyAlike I (.error e) (.error e)

namespace PropertyAlike

theorem sequence {vs vs' : List Value} (h : Items.Alike I vs vs') (name : String) :
    PropertyAlike I (Value.sequenceProperty vs name) (Value.sequenceProperty vs' name) := by
  have hs : (Value.sequence vs).Alike I (Value.sequence vs') := .sequence h
  unfold Value.sequenceProperty
  split
  · rename_i index _
    have hi := h.getElem? index
    rw [h.length_eq]
    generalize vs[index]? = o, vs'[index]? = o' at hi
    cases hi with
    | some hv => exact .ok hv
    | none => exact .error _
  · split
    · exact .ok hs.first
    · exact .ok hs.last
    · exact .ok hs.rest
    · rw [h.length_eq]; exact .ok (.ofNat _)
    · rw [h.length_eq]; exact .ok (.ofNat _)
    · exact .error _

theorem map {es es' : List (String × Value)} (h : Entries.Alike I es es') (name : String) :
    PropertyAlike I (Value.property (.map es) name) (Value.property (.map es') name) := by
  have hf := h.lookup name
  unfold Value.property Dict.find?
  simp only
  generalize es.lookup name = o, es'.lookup name = o' at hf
  cases hf with
  | some hv => exact .ok hv
  | none =>
    split
    · contradiction
    · rw [h.keys_eq]; exact .ok (.sequence (.texts _))
    · exact .ok (.sequence h.values)
    · exact .ok .null

end PropertyAlike

/-- Reading a property of alike values that are no templates comes to the same. -/
theorem Value.Alike.property_other {v v' : Value} (h : v.Alike I v') (ht : v.template? = none) (name : String) :
    PropertyAlike I (v.property name) (v'.property name) := by
  cases h with
  | null => exact .ok .null
  | sequence hv => exact .sequence hv name
  | map he => exact .map he name
  | object t s hp =>
    rename_i ps ps'
    have hf := hp.lookup name
    unfold Value.property
    simp only
    generalize ps.lookup name = o, ps'.lookup name = o' at hf
    cases hf with
    | some hv => exact .ok hv
    | none => exact .error _
  | template => cases ht
  | bool b => exact .error _
  | int n => exact .error _
  | float x => exact .error _
  | text s => exact .error _

/-- So does reading a property of alike templates, if the relation of instances does not mix up programs. -/
theorem Value.Alike.property (hI : ∀ i i', I i i' → i.program = i'.program) {v v' : Value}
    (h : v.Alike I v') (name : String) : PropertyAlike I (v.property name) (v'.property name) := by
  cases hv : v.template? with
  | none => exact h.property_other hv name
  | some i =>
    cases h with
    | template hi =>
      unfold Value.property
      simp only [Instance.name, hi.program_eq hI]
      split
      · exact .ok (hi.get name)
      · exact .error _
    | _ => cases hv

end Stencil
