import Mathlib.Data.List.Induction
import Stencil.Proofs.Checking
import Stencil.Proofs.Mapping
import Stencil.Proofs.Seclusion
import Stencil.Proofs.Tags
/-! Attributes that are set, added to and removed. What an attribute holds comes from the last calls on its name, and
writing it writes what these calls gave it. -/

namespace Stencil

open Rendering

/-! ## Removing entries -/

namespace Dict

variable {α : Type}

theorem find?_erase_self (d : Dict α) (key : String) : find? (erase d key) key = none := by
  rw [find?, List.lookup_eq_none_iff]
  intro e he
  have hk : (e.1 != key) = true := (List.mem_filter.mp he).2
  exact bne_comm.trans hk

theorem find?_erase_of_ne (d : Dict α) {key other : String} (h : other ≠ key) :
    find? (erase d key) other = find? d other := by
  induction d with
  | nil => rfl
  | cons e d ih =>
    have he : erase (e :: d) key = if e.1 != key then e :: erase d key else erase d key := List.filter_cons
    rw [he]
    split
    · rw [find?, find?, List.lookup_cons, List.lookup_cons]
      cases other == e.1 with
      | true => rfl
      | false => exact ih
    · next hk =>
      have hk : e.1 = key := by simpa using hk
      rw [ih, find?, find?, List.lookup_cons, beq_false_of_ne (hk ▸ h)]

theorem sorted_erase {d : Dict α} (h : (keys d).Pairwise (· < ·)) (key : String) :
    (keys (erase d key)).Pairwise (· < ·) := h.sublist (List.filter_sublist.map _)

end Dict

/-! ## Calls on attributes -/

namespace Attributes

/-- A call on the attributes of an instance. -/
inductive Change where
  | set (name : String) (value : Value)
  | append (name : String) (value : Value)
  | remove (name : String)

namespace Change

def name : Change → String
  | set name _ | append name _ | remove name => name

def value? : Change → Option Value
  | set _ v | append _ v => some v
  | remove _ => none

/-- Whether a call adds to what the attribute holds. -/
def adds : Change → Bool
  | append _ _ => true
  | set _ _ | remove _ => false

def apply (a : Attributes) : Change → Attributes
  | set name v => Dict.insert name v a
  | append name v => Attributes.append name v a
  | remove name => Dict.erase a name

/-- Makes the call on an instance. -/
def ofInstance (i : Instance) : Change → Except AttributeError Instance
  | set name v => i.set name v
  | append name v => i.append name v
  | remove name => .ok (i.remove name)

end Change

/-- The attributes after some calls. -/
def after (changes : List Change) : Attributes := changes.foldl Change.apply []

/-- The values that the last calls on a name give to it: those from the last one on that does not add to it. -/
def given (name : String) (changes : List Change) : List Value :=
  let latest := (changes.filter (·.name == name)).reverse
  let added := latest.takeWhile Change.adds
  let last := (latest.dropWhile Change.adds).head?
  (last.toList ++ added.reverse).filterMap Change.value?

/-- What an attribute holds that is given some values. -/
def joined : List Value → Option Value
  | [] => none
  | [v] => some v
  | vs => some (.sequence (vs.flatMap items))

theorem after_concat (changes : List Change) (c : Change) : after (changes ++ [c]) = c.apply (after changes) := by
  rw [after, List.foldl_concat]
  rfl

section

variable {name : String} (changes : List Change)

theorem given_other {c : Change} (h : c.name ≠ name) : given name (changes ++ [c]) = given name changes := by
  rw [given, List.filter_append, List.filter_cons_of_neg (by simpa using h), List.filter_nil, List.append_nil]
  rfl

theorem given_append (v : Value) : given name (changes ++ [Change.append name v]) = given name changes ++ [v] := by
  have hl : ((changes ++ [Change.append name v]).filter (·.name == name)).reverse =
      Change.append name v :: (changes.filter (·.name == name)).reverse := by simp [Change.name]
  rw [given, hl, List.takeWhile_cons_of_pos rfl, List.dropWhile_cons_of_pos rfl, List.reverse_cons,
    ← List.append_assoc, List.filterMap_append]
  rfl

theorem given_last {c : Change} (hn : c.name = name) (h : c.adds = false) :
    given name (changes ++ [c]) = c.value?.toList := by
  have hl : ((changes ++ [c]).filter (·.name == name)).reverse = c :: (changes.filter (·.name == name)).reverse := by
    simp [hn]
  have hc : ¬c.adds = true := by rw [h]; nofun
  rw [given, hl, List.takeWhile_cons_of_neg hc, List.dropWhile_cons_of_neg hc]
  cases hv : c.value? <;> simp [hv]

end

theorem joined_eq_none {vs : List Value} : joined vs = none ↔ vs = [] := by
  cases vs with
  | nil => exact ⟨fun _ => rfl, fun _ => rfl⟩
  | cons v vs => cases vs <;> exact ⟨nofun, nofun⟩

theorem items_joined {vs : List Value} {held : Value} (h : joined vs = some held) : items held = vs.flatMap items := by
  unfold joined at h
  split at h
  · cases h
  · cases h
    rw [List.flatMap_singleton]
  · cases h
    rfl

theorem joined_concat {vs : List Value} (h : vs ≠ []) (v : Value) :
    joined (vs ++ [v]) = some (.sequence ((vs ++ [v]).flatMap items)) := by
  cases vs with
  | nil => exact absurd rfl h
  | cons u us => cases us <;> rfl

/-- What a name holds comes from the last calls on it. -/
theorem find?_after (changes : List Change) (name : String) :
    Dict.find? (after changes) name = joined (given name changes) := by
  induction changes using List.reverseRecOn with
  | nil => rfl
  | append_singleton changes c ih =>
    rw [after_concat]
    by_cases hn : c.name = name
    · cases c with
      | set n v =>
        cases hn
        rw [given_last changes rfl rfl]
        exact Dict.find?_insert_self _ _ _
      | append n v =>
        cases hn
        rw [Change.name] at ih
        rw [Change.name, given_append, Change.apply, Attributes.append, ih]
        cases hj : joined (given n changes) with
        | none =>
          rw [joined_eq_none.mp hj]
          exact Dict.find?_insert_self _ _ _
        | some held =>
          have hne : given n changes ≠ [] := fun h => nomatch hj.symm.trans (joined_eq_none.mpr h)
          rw [joined_concat hne, List.flatMap_append, List.flatMap_singleton, ← items_joined hj]
          exact Dict.find?_insert_self _ _ _
      | remove n =>
        cases hn
        rw [given_last changes rfl rfl]
        exact Dict.find?_erase_self _ _
    · rw [given_other changes hn, ← ih]
      cases c with
      | set n v => exact Dict.find?_insert_of_ne _ _ (Ne.symm hn)
      | append n v =>
        rw [Change.apply, Attributes.append]
        split <;> exact Dict.find?_insert_of_ne _ _ (Ne.symm hn)
      | remove n => exact Dict.find?_erase_of_ne _ (Ne.symm hn)

theorem sorted_after (changes : List Change) : (Dict.keys (after changes)).Pairwise (· < ·) := by
  induction changes using List.reverseRecOn with
  | nil => exact .nil
  | append_singleton changes c ih =>
    rw [after_concat]
    cases c with
    | set n v => exact Dict.sorted_insert ih
    | append n v =>
      rw [Change.apply, Attributes.append]
      split <;> exact Dict.sorted_insert ih
    | remove n => exact Dict.sorted_erase ih n

theorem mem_keys_after (changes : List Change) (name : String) :
    name ∈ Dict.keys (after changes) ↔ given name changes ≠ [] := by
  rw [← Dict.contains_iff, Dict.contains, find?_after, Option.isSome_iff_ne_none, ne_eq, joined_eq_none]

end Attributes

/-- An instance that accepts all names takes all calls. -/
theorem Instance.changes_any {i : Instance} (h : i.program.formals = .any) (changes : List Attributes.Change) :
    changes.foldlM Attributes.Change.ofInstance i =
      .ok { i with attributes := changes.foldl Attributes.Change.apply i.attributes } := by
  induction changes generalizing i with
  | nil =>
    cases i
    rfl
  | cons c changes ih =>
    have hc : c.ofInstance i = .ok { i with attributes := c.apply i.attributes } := by
      have hany (name : String) : i.program.formals.accepts name = true := by rw [h]; rfl
      cases c with
      | set n v => exact if_pos (hany n)
      | append n v => exact if_pos (hany n)
      | remove n => rfl
    rw [List.foldlM_cons, hc]
    exact ih h

/-! ## Writing what was given -/

section

variable (settings : Settings) (env : Env)

theorem writeItems_each (seen : Bool) (vs : List Value) :
    writeItems settings env {} seen vs = forM vs (writeValue settings env {}) := by
  induction vs generalizing seen with
  | nil => rw [writeItems, List.forM_nil]
  | cons v vs ih =>
    rw [writeItems, List.forM_cons]
    have hnone : writeSeparator settings env {} seen = pure () := by
      unfold writeSeparator
      split <;> rfl
    rw [hnone, pure_bind, ih seen, ih true]
    cases v with
    | null => rw [writeValue]; rfl
    | _ => rfl

/-- A value is written as the items that it adds to a sequence are. -/
theorem writeValue_items (v : Value) :
    writeValue settings env {} v = forM (Attributes.items v) (writeValue settings env {}) := by
  cases v with
  | sequence vs => rw [writeValue, writeItems_each, Attributes.items]
  | _ => exact bind_pure_unit.symm

theorem forM_items (vs : List Value) :
    forM (vs.flatMap Attributes.items) (writeValue settings env {}) = forM vs (writeValue settings env {}) := by
  induction vs with
  | nil => rfl
  | cons v vs ih => rw [List.flatMap_cons, List.forM_append, List.forM_cons, ← writeValue_items, ih]

/-- What an attribute holds is written as the values that were given to it, one behind another. -/
theorem writeValue_joined (vs : List Value) : writeValue settings env {} ((Attributes.joined vs).getD .null) =
    forM vs (writeValue settings env {}) := by
  match vs with
  | [] => rw [List.forM_nil]; exact writeValue.eq_1 settings env {}
  | [v] => rw [List.forM_cons, List.forM_nil, bind_pure_unit]; rfl
  | u :: v :: vs => rw [← forM_items, ← writeItems_each settings env false, ← writeValue]; rfl

end

/-! ## The same values below two sites -/

variable {p p' : Site} {env env' : Env}

/-- The templates of two sites write the same texts and scalars. -/
def Site.pen (settings : Settings) (hc : p.Calls [] (some env)) (hc' : p'.Calls [] (some env'))
    (hp : env.program = env'.program) (place : Option Span) :
    Pen (.everywhere (secludedAccord p p' [] []) (Secluded p p' [] [])) where
  settings
  settings' := settings
  env := env.atPlace place
  env' := env'.atPlace place
  text s _ := Secluded.writes .nil hc hc' hp settings place s
  scalar := Relating.writeScalar _ (fun _ => rfl) (fun s _ => Secluded.writes .nil hc hc' hp settings place s)
    fun _ _ _ => .modify (fun _ => rfl) fun _ _ h => h.report .nil hc hc' hp settings place _ _ _

/-- What a host built is written alike by the templates of two sites. -/
theorem Site.write_alike (r : Reading) (settings : Settings) (n : Nat) (hc : p.Calls [] (some env))
    (hc' : p'.Calls [] (some env')) (hp : env.program = env'.program) (place : Option Span) {v : Value}
    (hv : v.Alike (Instance.Twin []) v) {base : Sink × Sink} {m m' : Machine} (h : Secluded p p' [] [] base m m') :
    let run := fun env => evaluate r settings n (some env)
    (handle run (writeValue settings (env.atPlace place) {} v) m).Ends (fun _ _ => Secluded p p' [] [] base)
      (handle run (writeValue settings (env'.atPlace place) {} v) m') := by
  have hbonds : (Site.pen settings hc hc' hp place).Bonds (Instance.Twin []) := by
    refine ⟨Secluded.captures, fun hi base m m' hm => ?_⟩
    have hacc : secludedAccord p p' [] [] (env.atPlace place) _ (env'.atPlace place) _ (Secluded p p' [] [] base) :=
      ⟨⟨hc.chain, hc.ordered⟩, ⟨hc'.chain, hc'.ordered⟩, rfl, hi, base, rfl⟩
    exact .call hacc hm rfl fun _ _ hm => .done ⟨trivial, hm⟩ rfl
  have hrun (e : Env) (i : Instance) (e' : Env) (i' : Instance) (kept : Machine → Machine → Prop)
      (hacc : secludedAccord p p' [] [] e i e' i' kept) (k k' : Machine) (hm : kept k k') :
      (evaluate r settings n (some e) i k).Ends (fun _ _ => kept) (evaluate r settings n (some e') i' k') := by
    obtain ⟨he, he', hplace, hi, base, rfl⟩ := hacc
    cases n with
    | succ n => exact evaluate_secluded r settings (n + 1) .nil he he' nofun hi hm
    | zero =>
      -- the templates of the sites themselves tell that they refuse
      have hhere : e.here = env.here := (List.cons.inj (he.chain.trans hc.chain.symm)).1
      have hhere' : e'.here = env'.here := (List.cons.inj (he'.chain.trans hc'.chain.symm)).1
      have hprogram : e.program = e'.program := by
        rw [Env.program, Env.program, hhere, hhere']
        exact hp
      have hn : i.name = i'.name := congrArg (fun p : Program => p.name) hi.twin.program
      have hr := hm.report .nil he he' hprogram settings e.place .recursionLimit
        [toString settings.depthLimit, i.name] []
      refine ⟨(), (), _, _, rfl, rfl, ?_⟩
      obtain ⟨here', callers', place'⟩ := e'
      cases hplace
      rw [← hn]
      exact hr
  obtain ⟨_, _, k, k', hk, hk', -, hends⟩ := (hbonds.writeValue {} hv base m m' h).handle hrun
  exact ⟨_, _, k, k', hk, hk', hends⟩

/-! ## Templates that write an attribute -/

/-- The tree of a program does nothing but write an attribute, at a place. -/
def Program.Shows (r : Reading) (p : Program) (shown : String) (place : Option Span) : Prop :=
  ∀ g, ∃ s₁ s, (r.template g p).defaults = [] ∧ (r.template g p).body = [.tag (.attribute shown s₁) [] s] ∧
    (r.template g p).origin.place s = place

theorem Program.shows_of_compile (r : Reading) {directory : Directory} {name source shown : String} {p : Program}
    {s₁ s : Span} (hbody : Element.readAll source = .ok [.tag (.attribute shown s₁) [] s])
    (h : Program.compile directory name .any source = .ok p) : ∃ place, p.Shows r shown place := by
  obtain ⟨t, hread, -, ht, -, hf, hs⟩ := Program.of_compile h
  have hr : Template.read p.name p.formals p.source =
      .ok ⟨p.name, .any, ⟨source, false⟩, [], [.tag (.attribute shown s₁) [] s], false, 0⟩ := by
    rw [hf, hs, Template.read, hbody]
    rfl
  cases hr.symm.trans hread
  refine ⟨some s, fun g => ⟨s₁, s, ?_⟩⟩
  rw [r.template_read g p _ hr ht]
  exact ⟨rfl, rfl, rfl⟩

section

variable {r : Reading} {settings : Settings} {env : Env} {run : Env → Instance → Rendering Unit} {m k : Machine}
  {v : Value} {shown : String} {place : Option Span}

/-- Running such a program writes the value of the attribute. -/
theorem Program.Shows.runs (h : env.program.Shows r shown place)
    (hv : (lookupFrom m.frames shown none env.activations).getD .null = v)
    (hw : handle run (writeValue settings (env.atPlace place) {} v) m = .done () k) :
    ∃ l, handle run (runTree r settings env) m = .done () l ∧ l.sink = k.sink ∧ l.workspace = k.workspace := by
  obtain ⟨s₁, s, hdefaults, hbody, rfl⟩ := h env.here.bound.native
  obtain ⟨l, hl, hsink, hworkspace⟩ := writeExpression_done hw
  generalize ht : r.template env.here.bound.native env.program = t at hdefaults hbody hw hl
  have hread (before : Nat) : Gives run (Expr.eval r settings env t.origin before (.attribute shown s₁)) m v m := by
    rw [← hv]
    exact .lift rfl
  have htag (before : Nat) : Gives run (Element.eval r settings env t.origin before (.tag (.attribute shown s₁) [] s)) m ()
      l := by
    refine (hread _).bind <| .bind (.pure none m) <| .bind (.pure none m) <| .bind (.pure none m) <| .bind ?_ (.lift hl)
    exact .lift rfl
  have heval : Gives run (t.eval r settings env) m () l := by
    rw [Template.eval, hdefaults, hbody]
    exact .bind (.pure () m) (.bind (htag _) (.pure () l))
  refine ⟨l, ?_, hsink, hworkspace⟩
  unfold runTree
  rw [ht]
  exact handle_bind_of_done heval

end

/-! ## Renders of values alone -/

/-- No template in a value, at any depth, belongs to a frame. -/
def Value.HostBuilt (v : Value) : Prop := v.Alike (fun j j' => j = j' ∧ j.enclosing = none) v

theorem Value.HostBuilt.twin {v : Value} (h : v.HostBuilt) (w : List (Nat × Nat)) : v.Alike (Instance.Twin w) v :=
  h.mono fun j j' ⟨he, hn⟩ => he ▸ ⟨rfl, rfl, rfl, by rw [hn]; exact .none⟩

namespace Interpreter

def settings (i : Interpreter) (group : Group) : Settings := ⟨i.depthLimit, group, i.listener.getD group.listener⟩

/-- An instance starts in a render. -/
def enter (i : Interpreter) (bound : Instance) (w : Workspace) : Env × Machine :=
  Machine.enter none bound ⟨.empty i.retain, [], .output none, 0, w⟩

variable {r : Reading} (i : Interpreter) {bound : Instance} {shown : String} {place : Option Span} {w : Workspace}
  {k : Machine}

/-- A render of a template that only writes an attribute writes the value of the attribute. -/
theorem render_shows (hp : bound.program.Shows r shown place) (hn : bound.enclosing = none)
    (hw : handle (fun env => evaluate r (i.settings bound.group) i.depthLimit (some env))
      (writeValue (i.settings bound.group) ((i.enter bound w).1.atPlace place) {} (bound.get shown))
      (i.enter bound w).2 = .done () k) :
    (i.render bound).run w = (k.sink.text, k.workspace) ∧ k.sink.Free := by
  have hv : (lookupFrom (i.enter bound w).2.frames shown none (i.enter bound w).1.activations).getD .null =
      bound.get shown := by
    change Option.getD (lookupFrom _ shown none [⟨bound, 0⟩]) _ = _
    rw [lookupFrom_here _ _ rfl, hn, Option.bind_none, Option.or_none, Instance.get, Attributes.get]
    cases hx : Dict.find? bound.attributes shown with
    | some v => simp [Activation.own?, hx]
    | none =>
      rw [Activation.own?, hx]
      rfl
  have hhere : (i.enter bound w).1.program = bound.program := rfl
  obtain ⟨l, hl, hsink, hworkspace⟩ := (hhere ▸ hp : (i.enter bound w).1.program.Shows r shown place).runs hv hw
  obtain ⟨j, hj, hstill⟩ := i.final_still r i.retain none bound w
  cases hj.symm.trans (evaluate_succ hl)
  obtain ⟨-, hs, -, hws⟩ := Machine.still_eq_iff.mp hstill
  have hfree : (i.final i.retain none bound w).sink.Free := by
    have hstart : Appended [] ⟨.empty i.retain, [], .output none, 0, w⟩ ⟨.empty i.retain, [], .output none, 0, w⟩ :=
      ⟨.refl _, ⟨rfl, rfl, List.forall_mem_nil _⟩, ⟨rfl, rfl, List.forall_mem_nil _⟩, rfl⟩
    have hends := @invoke_appended (i.settings bound.group) _ _ _ (i.depthLimit + 1) none bound hstart
    obtain ⟨_, _, a, a', ha, -, -, hfree⟩ := hends
    have hfinal : i.final i.retain none bound w = a := congrArg Course.machine ha
    rw [hfinal]
    exact hfree.free
  have hk : (i.final i.retain none bound w).sink = k.sink := hs.trans hsink
  refine ⟨?_, hk ▸ hfree⟩
  rw [← hk, ← hworkspace]
  exact congrArg (Prod.mk _) hws

/-- Values that are written one behind another, in the place of an instance of the same name, are written as each is
alone in a template that only writes it, and all that comes of it is the same. -/
theorem render_each (hp : bound.program.Shows r shown place) (hn : bound.enclosing = none) {here : Activation}
    (hhere : here.bound.program = bound.program) {vs : List Value} (hvs : ∀ v ∈ vs, v.HostBuilt) {m : Machine}
    (hm : m.frames.Chain [here]) (hs : m.sink.Free) :
    ∃ k texts, handle (fun env => evaluate r (i.settings bound.group) i.depthLimit (some env))
        (forM vs (writeValue (i.settings bound.group) ⟨here, [], place⟩ {})) m = .done () k ∧
      (vs.mapM fun v => i.render (bound.bind shown v)).run m.workspace = (texts, k.workspace) ∧
      k.sink.text = m.sink.text ++ String.join texts := by
  induction vs generalizing m with
  | nil => exact ⟨m, [], rfl, rfl, String.append_empty.symm⟩
  | cons v vs ih =>
    obtain ⟨hv, hvs⟩ := List.forall_mem_cons.mp hvs
    -- the value alone, and here
    let alone := i.enter (bound.bind shown v) m.workspace
    let p : Site := ⟨[alone.1.here], m.workspace.delivered⟩
    let p' : Site := ⟨[here], m.workspace.delivered⟩
    have hc : p.Calls [] (some alone.1) := ⟨rfl, .cons nofun .nil⟩
    have hc' : p'.Calls [] (some ⟨here, [], place⟩) := ⟨rfl, .cons nofun .nil⟩
    have hstart : Secluded p p' [] [] (alone.2.sink, m.sink) alone.2 m :=
      ⟨Frames.Chain.nil.enter (bound.bind shown v), hm, .nil, ⟨⟨[], rfl, rfl⟩, hs.failed.symm, hs.room.symm⟩, rfl, rfl, #[],
        by rw [Deliveries.under_empty, Array.append_empty]; rfl, by rw [Deliveries.under_empty, Array.append_empty]⟩
    obtain ⟨_, _, j, j', hj, hj', hends⟩ := Site.write_alike r (i.settings bound.group) i.depthLimit hc hc' hhere.symm
      place (hv.twin _) hstart
    have hget : (bound.bind shown v).get shown = v := by
      rw [Instance.get, Instance.bind, Attributes.get, Dict.find?_insert_self, Option.getD_some]
    have hshown : (bound.bind shown v).program.Shows r shown place := hp
    obtain ⟨hrender, hfree⟩ := i.render_shows hshown hn (by rw [hget]; exact hj)
    have hworkspace : j.workspace = j'.workspace := by
      obtain ⟨told, ht, ht'⟩ := hends.told
      have hpath : p.path = p'.path := by
        change [bound.program.name] = [here.bound.program.name]
        rw [hhere]
      have hdelivered : j.workspace.delivered = j'.workspace.delivered := by rw [ht, ht', hpath]
      have hslots := hends.slots
      have hreports := hends.reports
      generalize j.workspace = w, j'.workspace = w' at hdelivered hslots hreports
      cases w
      cases w'
      cases hdelivered
      cases hslots
      cases hreports
      rfl
    obtain ⟨texts, ht, ht'⟩ := hends.sink.texts
    have hnil : alone.2.sink.pieces = [] := rfl
    rw [hnil, List.append_nil] at ht
    have hs' : j'.sink.Free := by
      refine ⟨hends.sink.failed.symm.trans hfree.failed, hends.sink.room.symm.trans hfree.room, fun s hm => ?_⟩
      rw [ht'] at hm
      rcases List.mem_append.mp hm with hm | hm
      · exact hfree.nonempty s (ht ▸ hm)
      · exact hs.nonempty s hm
    obtain ⟨k, rest, hk, hmap, htext⟩ := ih hvs hends.live' hs'
    refine ⟨k, j.sink.text :: rest, ?_, ?_, ?_⟩
    · rw [List.forM_cons]
      exact (handle_bind_of_done hj').trans hk
    · have hstep := congrArg (fun q : String × Workspace => (StateT.run (vs.mapM fun v => i.render (bound.bind shown v))
        q.2).map (q.1 :: ·) id) hrender
      rw [hworkspace, hmap] at hstep
      rw [List.mapM_cons]
      exact hstep
    · rw [htext, String.join_cons, ← String.append_assoc, Sink.text, Sink.text, Sink.text, ht, ht', List.reverse_append,
        String.join_append]

/-- A template that only writes an attribute writes the texts of the values that were given to it. -/
theorem render_joined (hp : bound.program.Shows r shown place) (hn : bound.enclosing = none) {vs : List Value}
    (hvs : ∀ v ∈ vs, v.HostBuilt) {a : Attributes} (ha : Dict.find? a shown = Attributes.joined vs) :
    i.render { bound with attributes := a } = String.join <$> vs.mapM fun v => i.render (bound.bind shown v) := by
  funext w
  generalize hb : ({ bound with attributes := a } : Instance) = b
  have hprogram : b.program = bound.program := by rw [← hb]
  have hgroup : b.group = bound.group := by rw [← hb]
  have henclosing : b.enclosing = none := by rw [← hb]; exact hn
  have hget : b.get shown = (Attributes.joined vs).getD .null := by rw [← hb, Instance.get, Attributes.get, ha]
  obtain ⟨k, texts, hk, hmap, htext⟩ := i.render_each hp hn hprogram hvs (Frames.Chain.nil.enter b)
    (⟨rfl, rfl, nofun⟩ : (i.enter b w).2.sink.Free)
  have hwritten : handle (fun env => evaluate r (i.settings b.group) i.depthLimit (some env))
      (writeValue (i.settings b.group) ((i.enter b w).1.atPlace place) {} (b.get shown)) (i.enter b w).2 = .done () k := by
    rw [hget, writeValue_joined, hgroup]
    exact hk
  obtain ⟨hrender, -⟩ := i.render_shows (hprogram.symm ▸ hp) henclosing hwritten
  have htexts : k.sink.text = String.join texts := htext.trans String.empty_append
  refine hrender.trans ?_
  rw [htexts]
  exact (congrArg (fun q : List String × Workspace => (String.join q.1, q.2)) hmap).symm

end Interpreter

/-- No template in the value of a call belongs to a frame. -/
def Attributes.Change.HostBuilt (c : Attributes.Change) : Prop := ∀ v, c.value? = some v → v.HostBuilt

theorem Attributes.mem_given {name : String} {changes : List Change} {v : Value} (h : v ∈ given name changes) :
    ∃ c ∈ changes, c.value? = some v := by
  obtain ⟨c, hc, hv⟩ := List.mem_filterMap.mp h
  refine ⟨c, ?_, hv⟩
  have hlatest : c ∈ (changes.filter (·.name == name)).reverse := by
    rcases List.mem_append.mp hc with hc | hc
    · exact (List.dropWhile_sublist _).subset (List.mem_of_mem_head? (Option.mem_toList.mp hc))
    · exact (List.takeWhile_sublist _).subset (List.mem_reverse.mp hc)
  exact (List.mem_filter.mp (List.mem_reverse.mp hlatest)).1

/-- However attributes are set, added to and removed, each holds what the last calls on its name gave it: the value
itself if it is one, and else the sequence of what each of them adds. A name that is given nothing is absent. The names
are in order without repetition. And the template that only writes an attribute writes the texts, one behind another, of
what the attribute was given, each as the same template writes it that is given nothing else; all that comes of these
renders in turn comes of the one. -/
theorem attributes_accumulate (changes : List Attributes.Change) :
    (∀ name, Dict.find? (Attributes.after changes) name = Attributes.joined (Attributes.given name changes) ∧
      (name ∈ Dict.keys (Attributes.after changes) ↔ Attributes.given name changes ≠ [])) ∧
    (Dict.keys (Attributes.after changes)).Pairwise (· < ·) ∧
    ∀ {directory : Directory} {name : String} {p : Program}, Program.compile directory name .any "<x>" = .ok p →
      (∀ c ∈ changes, c.HostBuilt) → ∀ (group native : Group) (i : Interpreter),
        let bound := Instance.ofProgram group native p none
        ∃ (b : Instance) (alone : Value → Instance),
          changes.foldlM Attributes.Change.ofInstance bound = .ok b ∧ b.attributes = Attributes.after changes ∧
          (∀ v, bound.append "x" v = .ok (alone v)) ∧
          i.render b = String.join <$> (Attributes.given "x" changes).mapM fun v => i.render (alone v) := by
  refine ⟨fun name => ⟨Attributes.find?_after changes name, Attributes.mem_keys_after changes name⟩,
    Attributes.sorted_after changes, ?_⟩
  intro directory name p hp hv group native i bound
  obtain ⟨r⟩ := Reading.nonempty
  have halone : StandsAlone "x" := ⟨by decide, by decide, by decide⟩
  obtain ⟨_, _, hx⟩ := Element.readAll_attribute halone
  obtain ⟨place, hshows⟩ := Program.shows_of_compile r hx hp
  obtain ⟨-, -, -, -, -, hany, -⟩ := Program.of_compile hp
  have hopen : bound.program.formals = .any := hany
  exact ⟨{ bound with attributes := Attributes.after changes }, fun v => bound.bind "x" v,
    Instance.changes_any hopen changes, rfl, fun v => if_pos (by rw [hopen]; rfl),
    i.render_joined hshows rfl (fun v h => (Attributes.mem_given h).elim fun c hc => hv c hc.1 v hc.2)
      (Attributes.find?_after changes "x")⟩

theorem attributes_accumulate_words :
    let directory : Directory := ⟨fun _ => none, fun _ => none, []⟩
    let changes : List Attributes.Change := [.set "x" (.int 1), .remove "x", .append "y" (.bool true),
      .append "x" (.text "a"), .append "x" .null, .append "x" (.sequence [.text "b", .sequence [.text "c"]])]
    ∃ p, Program.compile directory "show" .any "<x>" = .ok p ∧
      let bound := Instance.ofProgram (.empty "main") (.empty "main") p none
      (∀ c ∈ changes, c.HostBuilt) ∧
        Dict.find? (Attributes.after changes) "x" =
          some (.sequence [.text "a", .null, .text "b", .sequence [.text "c"]]) ∧
        Dict.keys (Attributes.after changes) = ["x", "y"] ∧
        ∃ (b : Instance) (alone : Value → Instance),
          changes.foldlM Attributes.Change.ofInstance bound = .ok b ∧ b.attributes = Attributes.after changes ∧
          (∀ v, bound.append "x" v = .ok (alone v)) ∧
          ({} : Interpreter).render b = String.join <$> [Value.text "a", .null,
            .sequence [.text "b", .sequence [.text "c"]]].mapM fun v => ({} : Interpreter).render (alone v) := by
  intro directory changes
  have hok : (Program.compile directory "show" .any "<x>").isOk = true := by decide +kernel
  obtain ⟨p, hp, -⟩ := Program.of_isOk hok
  have hv : ∀ c ∈ changes, c.HostBuilt := by
    have hnested : (Value.sequence [.text "b", .sequence [.text "c"]]).HostBuilt :=
      .sequence (.cons (.text _) (.cons (.sequence (.cons (.text _) .nil)) .nil))
    simp only [changes, List.forall_mem_cons, Attributes.Change.HostBuilt, Attributes.Change.value?, Option.some.injEq,
      forall_eq']
    exact ⟨.int 1, nofun, .bool true, .text "a", .null, hnested, nofun⟩
  obtain ⟨hfind, -, hrender⟩ := attributes_accumulate changes
  exact ⟨p, hp, hv, (hfind "x").1, rfl, hrender hp hv (.empty "main") (.empty "main") {}⟩

end Stencil
