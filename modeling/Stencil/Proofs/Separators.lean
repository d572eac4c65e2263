import Stencil.Proofs.Mapping
/-! Separators. Sequences may hold sequences, and the texts at the bottom are written with the separator between
them. A sequence in another one takes its place there even if there is nothing to write in it. -/

namespace Stencil

open Rendering

/-! ## Leaves -/

mutual

/-- What lies at the bottom of sequences within sequences, in order and without nulls. -/
def Value.leaves : Value → List Value
  | .null => []
  | .sequence vs => Value.leavesAll vs
  | v => [v]

def Value.leavesAll : List Value → List Value
  | [] => []
  | v :: vs => v.leaves ++ Value.leavesAll vs

end

mutual

/-- What the separator stands between: the leaves, and null in the place of a sequence in another one that is
empty or holds nulls alone. -/
def Value.slots : Value → List Value
  | .null => []
  | .sequence vs => Value.slotsAll vs
  | v => [v]

def Value.slotsAll : List Value → List Value
  | [] => []
  | v :: vs => (if v.isNull then [] else if v.slots.isEmpty then [.null] else v.slots) ++ Value.slotsAll vs

end

/-- A value is in a sequence, or in one further in. -/
inductive Value.Inside (w : Value) : Value → Prop where
  | item {vs : List Value} (h : w ∈ vs) : Inside w (.sequence vs)
  | further {v : Value} {vs : List Value} (h : Inside w v) (hv : v ∈ vs) : Inside w (.sequence vs)

/-- There are leaves in all the sequences in a value. -/
def Value.Filled (v : Value) : Prop := ∀ vs, (Value.sequence vs).Inside v → (Value.sequence vs).leaves ≠ []

namespace Value

variable {v : Value} {vs : List Value}

theorem Filled.item (h : (sequence vs).Filled) (hv : v ∈ vs) : v.Filled := fun ws hw => h ws (.further hw hv)

theorem Filled.leaves_ne_nil (h : (sequence vs).Filled) (hv : v ∈ vs) (hn : v.isNull = false) : v.leaves ≠ [] := by
  cases v with
  | null => cases hn
  | sequence ws => exact h ws (.item hv)
  | bool | int | float | text | object | map | template => exact List.cons_ne_nil _ _

mutual

/-- Where there are leaves everywhere, the separator stands between the leaves. -/
theorem Filled.slots_eq : (v : Value) → v.Filled → v.slots = v.leaves
  | .sequence vs, h => Filled.slotsAll_eq vs (fun _ hv => h.item hv) fun _ => h.leaves_ne_nil
  | .null, _ | .bool _, _ | .int _, _ | .float _, _ | .text _, _ | .object .., _ | .map _, _ | .template _, _ => rfl

theorem Filled.slotsAll_eq : (vs : List Value) → (∀ v ∈ vs, v.Filled) →
    (∀ v ∈ vs, v.isNull = false → v.leaves ≠ []) → slotsAll vs = leavesAll vs
  | [], _, _ => rfl
  | v :: vs, h, hl => by
    obtain ⟨hv, hvs⟩ := List.forall_mem_cons.mp h
    obtain ⟨hne, hnes⟩ := List.forall_mem_cons.mp hl
    rw [slotsAll, leavesAll, Filled.slotsAll_eq vs hvs hnes, Filled.slots_eq v hv]
    cases hn : v.isNull with
    | true =>
      obtain rfl := eq_null_of_isNull hn
      rfl
    | false => rw [if_neg Bool.false_ne_true, if_neg (by simpa using hne hn)]

end

mutual

/-- The leaves are what the separator stands between, apart from the places of sequences without any. -/
theorem leaves_eq_filter_slots : (v : Value) → v.leaves = v.slots.filter (!·.isNull)
  | .sequence vs => leavesAll_eq_filter_slotsAll vs
  | .null | .bool _ | .int _ | .float _ | .text _ | .object .. | .map _ | .template _ => rfl

theorem leavesAll_eq_filter_slotsAll : (vs : List Value) → leavesAll vs = (slotsAll vs).filter (!·.isNull)
  | [] => rfl
  | v :: vs => by
    rw [leavesAll, slotsAll, List.filter_append, ← leavesAll_eq_filter_slotsAll vs]
    congr 1
    cases hn : v.isNull with
    | true =>
      obtain rfl := eq_null_of_isNull hn
      rfl
    | false =>
      rw [if_neg Bool.false_ne_true, leaves_eq_filter_slots v]
      split
      · next he =>
        rw [List.isEmpty_iff.mp he]
        rfl
      · rfl

end

end Value

/-! ## Writing -/

namespace Settings

variable (settings : Settings)

/-- What is written for a scalar of a kind: what the renderer makes of it, or its plain text. -/
def scalarText (kind : ScalarKind) (plain : String) : String :=
  match settings.group.renderer? kind with
  | none => plain
  | some renderer =>
    match renderer kind plain none with
    | .ok text => text
    | .error _ => plain

/-- What is written for a value that is a scalar. -/
def textOf (v : Value) : String := (v.scalar?.map fun s => settings.scalarText s.1 s.2).getD ""

end Settings

/-- Texts in front of others are joined first. -/
theorem joinedBehind_append (separator : String) (seen : Bool) (before : String) {texts : List String}
    (h : texts ≠ []) (others : List String) :
    joinedBehind separator seen before (texts ++ others) =
      joinedBehind separator true ((if seen then before ++ separator else before) ++ separator.intercalate texts)
        others := by
  cases others with
  | nil =>
    rw [List.append_nil, joinedBehind_nil]
    cases seen <;> simp [joinedBehind, String.intercalate_cons_of_ne_nil h]
  | cons other others =>
    have happ := String.intercalate_append_of_ne_nil (s := separator) h (List.cons_ne_nil other others)
    cases seen <;> simp [joinedBehind, String.intercalate_cons_of_ne_nil, happ, String.append_assoc]

section

variable {settings : Settings} {env : Env} {run : Env → Instance → Rendering Unit}

theorem scalarText_free (settings : Settings) (env : Env) (m : Machine) (kind : ScalarKind) (plain : String) :
    ∃ k, scalarText settings env kind plain none m = .done (settings.scalarText kind plain) k ∧ k.sink = m.sink := by
  rw [Rendering.scalarText, Settings.scalarText]
  cases settings.group.renderer? kind with
  | none => exact ⟨m, rfl, rfl⟩
  | some renderer =>
    dsimp only
    cases renderer kind plain none with
    | ok text => exact ⟨m, rfl, rfl⟩
    | error causes => exact ⟨_, rfl, rfl⟩

theorem writeScalar_free {m : Machine} (hs : m.sink.Free) (kind : ScalarKind) (plain : String) :
    ∃ k, handle run (writeScalar settings env kind plain none) m = .done () k ∧ k.sink.Free ∧
      k.sink.text = m.sink.text ++ settings.scalarText kind plain := by
  obtain ⟨j, hj, hjm⟩ := scalarText_free settings env m kind plain
  obtain ⟨k, hk, -, hfree, htext⟩ := writeText_free settings env (m := j) (hjm ▸ hs) (settings.scalarText kind plain)
  refine ⟨k, (handle_bind_of_done (congrArg (Course.handle run) hj)).trans (congrArg (Course.handle run) hk), hfree, ?_⟩
  rw [htext, hjm]

mutual

/-- Writing a value writes what the separator stands between, with the separator. -/
theorem writeValue_slots (separator : String) : (v : Value) → (∀ x ∈ v.leaves, x.scalar?.isSome) → {m : Machine} →
    m.sink.Free → ∃ k, handle run (writeValue settings env ⟨some separator, none, none⟩ v) m = .done () k ∧
      k.sink.Free ∧ k.sink.text = m.sink.text ++ separator.intercalate (v.slots.map settings.textOf)
  | .null, _, m, hs => ⟨m, rfl, hs, by simp [Value.slots]⟩
  | .bool _, _, _, hs | .int _, _, _, hs | .float _, _, _, hs | .text _, _, _, hs | .object .., _, _, hs =>
    writeScalar_free hs _ _
  | .sequence vs, h, _, hs => writeItems_slots separator false vs h hs
  | .map _, h, _, _ | .template _, h, _, _ => nomatch h _ (List.mem_singleton_self _)

theorem writeItems_slots (separator : String) (seen : Bool) : (vs : List Value) →
    (∀ x ∈ Value.leavesAll vs, x.scalar?.isSome) → {m : Machine} → m.sink.Free →
    ∃ k, handle run (writeItems settings env ⟨some separator, none, none⟩ seen vs) m = .done () k ∧ k.sink.Free ∧
      k.sink.text = joinedBehind separator seen m.sink.text ((Value.slotsAll vs).map settings.textOf)
  | [], _, m, hs => ⟨m, rfl, hs, (joinedBehind_nil _ _ _).symm⟩
  | v :: vs, h, m, hs => by
    rw [Value.leavesAll, List.forall_mem_append] at h
    rw [Rendering.writeItems, Value.slotsAll, List.map_append]
    cases hn : v.isNull with
    | true => exact writeItems_slots separator seen vs h.2 hs
    | false =>
      obtain ⟨i, hi, -, hfree, htext⟩ := writeSeparator_free settings env hs separator seen
      obtain ⟨j, hj, hfree, htext'⟩ := writeValue_slots separator v h.1 hfree
      obtain ⟨k, hk, hfree, htext''⟩ := writeItems_slots separator true vs h.2 hfree
      refine ⟨k, (handle_bind_of_done (congrArg (Course.handle run) hi)).trans ((handle_bind_of_done hj).trans hk),
        hfree, ?_⟩
      rw [htext'', htext', htext, if_neg Bool.false_ne_true]
      cases hv : v.slots with
      | nil =>
        rw [if_pos List.isEmpty_nil, List.map_singleton, joinedBehind_append _ _ _ (List.cons_ne_nil _ _)]
        rfl
      | cons =>
        rw [List.isEmpty_cons, if_neg Bool.false_ne_true, List.map_cons,
          joinedBehind_append _ _ _ (List.cons_ne_nil _ _)]

end

end

/-! ## Tags -/

section

variable {r : Reading} {settings : Settings} {env : Env} {o : Origin} {before : Nat}
  {run : Env → Instance → Rendering Unit} {m m₁ m₂ m₃ : Machine}

/-- A tag with a separator writes the texts of the leaves of its value in order, with the separator between them
and nowhere else, provided that there are leaves in all the sequences in the value. A sequence without leaves
takes a place between separators. -/
theorem separators_between {target separator : Expr} (s s' : Span) {v x : Value} {text : String}
    (hv : Gives run (target.eval r settings env o before) m v m₁)
    (hx : Gives run (separator.eval r settings env o (before + target.started)) m₁ x m₂)
    (htext : handle run (renderText settings (env.atPlace (o.place s)) x) m₂ = .done text m₃)
    (hl : ∀ y ∈ v.leaves, y.scalar?.isSome) (hs : m.sink.Free) :
    ∃ k, Gives run ((Element.tag target [⟨"separator", separator, s'⟩] s).eval r settings env o before) m () k ∧
      k.sink.text = m.sink.text ++ text.intercalate (v.slots.map settings.textOf) ∧
      (v.Filled → k.sink.text = m.sink.text ++ text.intercalate (v.leaves.map settings.textOf)) := by
  -- the operands leave the sink as it was
  have hsink : m₃.sink = m.sink := (Aside.renderText _ _ _ run _ _ _ htext).trans <|
    (hx.sink_eq (Expr.eval_aside _ _)).trans (hv.sink_eq (Expr.eval_aside _ _))
  obtain ⟨k, hk, -, hslots⟩ := @writeValue_slots settings (env.atPlace (o.place s)) run text v hl m₃ (hsink ▸ hs)
  obtain ⟨l, hwrite, hlk, -⟩ := writeExpression_done hk
  have hl' : l.sink.text = m.sink.text ++ text.intercalate (v.slots.map settings.textOf) := by
    rw [hlk, hslots, hsink]
  refine ⟨l, ?_, hl', fun hf => hf.slots_eq v ▸ hl'⟩
  exact hv.bind <| (separator_gives hx s').bind <| (noOption_gives (by decide) _ _ _).bind <|
    (noOption_gives (by decide) _ _ _).bind <| .bind (.lift (renderOptions_separator htext)) (.lift hwrite)

theorem separators_between_rows :
    let r := Classical.choice Reading.nonempty
    let settings : Settings := ⟨100, .empty "main", .log⟩
    let o : Origin := ⟨"<rows; separator=\", \">", false⟩
    let target : Expr := .attribute "rows" ⟨1, 4⟩
    let tag : Element := .tag target [⟨"separator", .literal ", " ⟨17, 4⟩, ⟨7, 9⟩⟩] ⟨0, 22⟩
    let program := r.program ⟨"rows", .ofNames ["rows"], o, [], [tag], false, 0⟩
    let v : Value := .sequence [.null, .sequence [.text "a", .null], .sequence [.null, .bool true]]
    let bound := (Instance.ofProgram settings.group settings.group program none).bind "rows" v
    let start := (⟨.empty false, [], .output none, 0, .empty⟩ : Machine).enter none bound
    ∃ k, Gives (fun env => invoke settings 100 (some env)) (tag.eval r settings start.1 o 0) start.2 () k ∧
      k.sink.text = start.2.sink.text ++ ", ".intercalate (v.slots.map settings.textOf) ∧
      (v.Filled → k.sink.text = start.2.sink.text ++ ", ".intercalate (v.leaves.map settings.textOf)) := by
  intro r settings o target tag program v bound start
  have hv : Gives (fun env => invoke settings 100 (some env)) (target.eval r settings start.1 o 0) start.2 v start.2 :=
    rfl
  have hx : Gives (fun env => invoke settings 100 (some env)) (Expr.eval r settings start.1 o 0 (.literal ", " ⟨17, 4⟩))
      start.2 (.text ", ") start.2 := rfl
  exact separators_between ⟨0, 22⟩ ⟨7, 9⟩ hv hx rfl (by simp [v, Value.leaves, Value.leavesAll, Value.scalar?])
    ⟨rfl, rfl, nofun⟩

/-- A sequence of nulls leaves the separator behind that stands after its place. -/
example : (Value.sequence [.sequence [.null], .text "a"]).slots = [.null, .text "a"] := rfl

end

end Stencil
