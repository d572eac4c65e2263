import Stencil.Proofs.Evaluating
import Stencil.Proofs.Holding
import Stencil.Proofs.Layout
/-! The ranges of a trace denote the output. -/

namespace Stencil

open Rendering

variable {settings : Settings} {bound : Instance} {start : Machine}

/-! ## What events tell of -/

/-- In a render an instance is run, which leads from one state to another: the outermost one, or one that is called. -/
inductive Ran (settings : Settings) (bound : Instance) (start : Machine) : Instance → Machine → Machine → Prop where
  | root {visits k} (invokes : Invokes settings none bound start visits k) : Ran settings bound start bound start k
  | called {env caller callee address m k visits} {rest : Machine → Course (Option Flow)}
      (reached : Reached settings bound start (.carrying env address (.call caller callee m rest)))
      (invokes : Invokes settings (some caller) callee m visits k) : Ran settings bound start callee m k

/-- What an event tells of is done in a render, and leads from one state to another: an instance carries out a write,
or one that does not run early is run in a new frame. -/
inductive Event.Made (settings : Settings) (bound : Instance) (start : Machine) : Event → Machine → Machine → Prop where
  | wrote {env line set m k output} (carries : Carries settings bound start env line m k)
      (write : line.instr = .write set) : Made settings bound start (.wrote ⟨env.scope, output, line.span⟩) m k
  | completed {callee m k output} (ran : Ran settings bound start callee m k) :
      Made settings bound start (.completed ⟨m.frames.size, callee.name, output, false⟩) m k

/-- The `n`-th event of a trace denotes the text that was written while what it tells of was done: its stretch of the
output is that text. The events since the one of number `since` were recorded meanwhile. -/
def Trace.Denotes (settings : Settings) (bound : Instance) (start : Machine) (t : Trace) (n since : Nat) (e : Event) :
    Prop :=
  ∃ m k before text after, e.Made settings bound start m k ∧ m.frames.log.size = since ∧ k.frames.log.size = n + 1 ∧
    m.sink.text = before ∧ k.sink.text = before ++ text ∧ t.output = before ++ text ++ after ∧
      e.output = ⟨before.length, (before ++ text).length⟩

/-! ## States of a render -/

theorem Sink.After.text {base s : Sink} (h : base.After s) : ∃ more, s.text = base.text ++ more := by
  obtain ⟨texts, hp, -⟩ := h
  refine ⟨String.join texts.reverse, ?_⟩
  rw [Sink.text, hp, List.reverse_append, String.join_append]
  rfl

theorem Sink.After.position {base s : Sink} (h : base.After s) : base.position ≤ s.position := by
  obtain ⟨_, -, ho, hw⟩ := h
  rw [Sink.position, Sink.position, ho, hw]
  omega

/-- Positions are counted in characters of the output. -/
theorem Sink.After.position_eq {s : Sink} (h : (Sink.output none).After s) : s.position = s.text.length := by
  have hw := h.written_eq
  obtain ⟨_, -, ho, -⟩ := h
  rw [Sink.position, ho, hw]
  exact Nat.zero_add _

/-- A frame does not run early, and writes to the output itself, which takes all. -/
structure Machine.Loud (m : Machine) (scope : Nat) : Prop where
  retained : m.frames.retained = true
  live : scope < m.frames.size
  early : m.frames.isEarly scope = false
  sink : (Sink.output none).After m.sink

/-- A trace goes on from a state. -/
structure Machine.Before (m : Machine) (t : Trace) : Prop where
  log : m.frames.log.toList <+: t.frames.log.toList
  parent : ∀ scope < m.frames.size, t.frames.parent? scope = m.frames.parent? scope
  output : ∃ more, t.output = m.sink.text ++ more

namespace Machine

variable {n scope : Nat} {m k : Machine} {new : List Event} {t : Trace}

theorem Loud.goes (h : m.Loud scope) (hk : m.Goes n k new) : k.Loud scope where
  retained := hk.frames.retained.trans h.retained
  live := Nat.lt_of_lt_of_le h.live hk.frames.size
  early := (hk.frames.isEarly h.live).trans h.early
  sink := h.sink.trans hk.sink


theorem Goes.before (h : m.Goes n k new) (hk : k.Before t) : m.Before t where
  log := (h.frames.log ▸ List.prefix_append _ _).trans hk.log
  parent scope hs := (hk.parent scope (Nat.lt_of_lt_of_le hs h.frames.size)).trans (h.frames.parent? hs)
  output := by
    obtain ⟨more, hmore⟩ := h.sink.text
    obtain ⟨rest, hrest⟩ := hk.output
    exact ⟨more ++ rest, by rw [hrest, hmore, String.append_assoc]⟩

theorem Goes.size_log (h : m.Goes n k new) : k.frames.log.size = m.frames.log.size + new.length := by
  rw [← Array.length_toList, h.frames.log, List.length_append, Array.length_toList]

/-- The events that were recorded are those of the trace. -/
theorem Goes.event (h : m.Goes n k new) (hk : k.Before t) {i : Nat} {e : Event} (he : new[i]? = some e) :
    t.frames.log[m.frames.log.size + i]? = some e := by
  obtain ⟨rest, hrest⟩ := hk.log
  rw [h.frames.log, List.append_assoc] at hrest
  have hi := (List.getElem?_eq_some_iff.mp he).1
  rw [← Array.getElem?_toList, ← hrest, ← Array.length_toList, List.getElem?_append_right (Nat.le_add_right _ _),
    Nat.add_sub_cancel_left, List.getElem?_append_left hi, he]

end Machine

/-- What was done between two states is denoted by the event that tells of it. -/
theorem Event.Made.denotes {e : Event} {m k : Machine} {n : Nat} {new : List Event} {t : Trace}
    (h : e.Made settings bound start m k) (hm : (Sink.output none).After m.sink) (hk : m.Goes n k new) (ht : k.Before t) {i : Nat}
    (hi : k.frames.log.size = i + 1) (ho : e.output = ⟨m.sink.position, k.sink.position⟩) :
    t.Denotes settings bound start i m.frames.log.size e := by
  obtain ⟨text, htext⟩ := hk.sink.text
  obtain ⟨after, hafter⟩ := ht.output
  refine ⟨m, k, m.sink.text, text, after, h, rfl, hi, rfl, htext, htext ▸ hafter, ?_⟩
  rw [ho, hm.position_eq, (hm.trans hk.sink).position_eq, htext]

/-! ## States that go on -/

/-- What is laid out of a trace up to a state is laid out up to a later one. -/
def Machine.Advances (L : Trace → Nat → Nat → Nat → Nat → Prop) (n : Nat) (m k : Machine) : Prop :=
  (∃ new, m.Goes n k new) ∧ ∀ t lo a, k.Before t → L t lo m.sink.position a m.frames.log.size →
    L t lo k.sink.position a k.frames.log.size

namespace Machine.Advances

variable {L : Trace → Nat → Nat → Nat → Nat → Prop} {n : Nat} {m k l : Machine}

theorem refl (n : Nat) (m : Machine) : m.Advances L n m := ⟨⟨[], .refl n m⟩, fun _ _ _ _ h => h⟩

theorem trans (h : m.Advances L n k) (h' : k.Advances L n l) : m.Advances L n l := by
  obtain ⟨⟨new, hk⟩, hL⟩ := h
  obtain ⟨⟨new', hl⟩, hL'⟩ := h'
  exact ⟨⟨_, hk.trans hl⟩, fun t lo a ht hm => hL' t lo a ht (hL t lo a (hl.before ht) hm)⟩

theorem mono {n' : Nat} (hn : n' ≤ n) (h : m.Advances L n k) : m.Advances L n' k :=
  ⟨h.1.imp fun _ hk => hk.mono hn, h.2⟩

theorem loud {scope : Nat} (h : m.Advances L n k) (hm : m.Loud scope) : k.Loud scope :=
  h.1.elim fun _ hk => hm.goes hk

end Machine.Advances

/-- What a frame lays out of a trace when it carries out instructions. -/
def Trace.inFrame (settings : Settings) (bound : Instance) (start : Machine) (scope : Nat) (t : Trace) :
    Nat → Nat → Nat → Nat → Prop := t.frames.InFrame (t.Denotes settings bound start) scope

/-- What a frame lays out of a trace when it writes an expression. -/
def Trace.inWrite (settings : Settings) (bound : Instance) (start : Machine) (scope : Nat) (t : Trace) :
    Nat → Nat → Nat → Nat → Prop := t.frames.InWrite (t.Denotes settings bound start) scope

/-! ## Expressions -/

section

variable {env : Env} {C : Permit} {m : Machine} {α : Type}

/-- An expression calls instances in states to which it has come since it started to write. -/
def writes (settings : Settings) (bound : Instance) (start : Machine) (env : Env) (m : Machine) : Permit :=
  fun e _ kept => e = env ∧ kept = m.Advances (Trace.inWrite settings bound start env.scope) m.frames.size

/-- Writing text is no call. -/
theorem advances_of_link {Q : α → α → Prop} {x : Rendering α}
    (hx : ∀ l : Machine, ((l.going_quiet settings env).link fun _ _ _ _ _ => False).Matched Q x x) :
    Within C (m.Advances (Trace.inWrite settings bound start env.scope) m.frames.size) anything x := by
  intro l hl
  refine ((l.going_quiet settings env).of_link (o := ()) (hx l) l (Machine.going_holds.mpr (.refl _ _))).mono
    fun _ k hk => ⟨trivial, hl.trans ?_⟩
  have hk := Machine.going_holds.mp hk.2
  obtain ⟨new, hgoes⟩ := hl.1
  refine .mono hgoes.frames.size ⟨⟨[], hk⟩, fun t lo a _ hw => ?_⟩
  have hlog : k.frames.log.size = l.frames.log.size := hk.size_log
  exact hlog ▸ hw.upto hk.sink.position

mutual

theorem writeValue_advances {options : WriteOptions} (hf : options.format = none) : (v : Value) →
    Within (writes settings bound start env m)
      (m.Advances (Trace.inWrite settings bound start env.scope) m.frames.size) anything
      (writeValue settings env options v)
  | .null => by
      rw [writeValue]
      cases options.null with
      | none => exact .pure trivial
      | some s => exact advances_of_link fun l => ((l.going_quiet settings env).link _).writeText s
  | .bool _ | .int _ | .float _ | .text _ | .object _ _ _ => by
      rw [writeValue]
      exact advances_of_link fun l => ((l.going_quiet settings env).link _).writeScalar _ _ _
  | .sequence items => by
      rw [writeValue]
      exact writeItems_advances hf false items
  | .map entries => by
      rw [writeValue]
      exact advances_of_link fun l => ((l.going_quiet settings env).link _).writeKeys options false _
  | .template bound => by
      rw [writeValue, hf]
      exact fun l hl => .call ⟨rfl, rfl⟩ hl fun k hk => .done ⟨trivial, hk⟩

theorem writeItems_advances {options : WriteOptions} (hf : options.format = none) (seen : Bool) : (vs : List Value) →
    Within (writes settings bound start env m)
      (m.Advances (Trace.inWrite settings bound start env.scope) m.frames.size) anything
      (writeItems settings env options seen vs)
  | [] => .pure trivial
  | v :: vs => by
      rw [writeItems]
      split
      · exact writeItems_advances hf seen vs
      · exact .bind (advances_of_link fun l => ((l.going_quiet settings env).link _).writeSeparator options seen)
          fun _ _ => .bind (writeValue_advances hf v) fun _ _ => writeItems_advances hf true vs

end

/-! ## Writes -/

/-- The text of an option that is there is taken from the stack. -/
theorem popOption_texts (settings : Settings) (env : Env) {m : Machine} {present : Bool} {texts : List String} {stack : List Value}
    (hs : m.stack = texts.map .text ++ stack) (hn : texts.length = present.toNat) :
    ∃ text, popOption settings env present m = .done text { m with stack } := by
  cases present with
  | false =>
    obtain rfl := List.length_eq_zero_iff.mp hn
    exact ⟨none, congrArg (Course.done none) (by rw [← show m.stack = stack from hs])⟩
  | true =>
    obtain ⟨text, rfl⟩ := List.length_eq_one_iff.mp hn
    refine ⟨some text, ?_⟩
    rw [popOption, if_pos rfl, bind_apply, pop, hs]
    rfl

/-- Options that are texts are taken from the stack. -/
theorem popOptions_texts (settings : Settings) (env : Env) {set : OptionSet} (hset : set.format = false) {texts : List String} {stack : List Value}
    (hs : m.stack = texts.map .text ++ stack) (hn : texts.length = set.names.length) :
    ∃ options : WriteOptions, options.format = none ∧ popOptions settings env set m = .done options { m with stack } := by
  rw [OptionSet.length_names, hset, Bool.toNat_false, Nat.add_zero] at hn
  have hsplit := List.take_append_drop set.null.toNat texts
  rw [← hsplit, List.map_append, List.append_assoc] at hs
  have hfirst : (texts.take set.null.toNat).length = set.null.toNat := by
    rw [List.length_take]
    omega
  have hrest : (texts.drop set.null.toNat).length = set.separator.toNat := by
    rw [List.length_drop]
    omega
  obtain ⟨null, hnull⟩ := popOption_texts settings env hs hfirst
  obtain ⟨separator, hseparator⟩ := popOption_texts settings env
    (m := { m with stack := (texts.drop set.null.toNat).map .text ++ stack }) rfl hrest
  refine ⟨{ separator, null }, rfl, ?_⟩
  rw [popOptions, bind_apply, hnull, hset]
  change (popOption settings env set.separator _).bind _ = _
  rw [hseparator]
  rfl

/-- An expression is written, and then recorded. -/
theorem perform_write (hm : m.Loud env.scope) {set : OptionSet} (hset : set.format = false) {texts : List String}
    {stack : List Value} (hs : m.stack = texts.map .text ++ stack) (hn : texts.length = set.names.length) :
    ((perform settings env (.write set)).run m).Within (writes settings bound start env m) fun flow k =>
      flow = some .next ∧ ∃ l, m.Advances (Trace.inWrite settings bound start env.scope) m.frames.size l ∧
        k.sink = l.sink ∧
        k.frames = l.frames.recordWriting ⟨env.scope, ⟨m.sink.position, l.sink.position⟩, env.place⟩ := by
  obtain ⟨options, hf, hpop⟩ := popOptions_texts settings env hset hs hn
  have hwrite (v : Value) (rest : List Value) :
      (writeExpression settings env options v { m with stack := rest }).Within (writes settings bound start env m)
        fun _ k => ∃ l, m.Advances (Trace.inWrite settings bound start env.scope) m.frames.size l ∧ k.sink = l.sink ∧
          k.frames = l.frames.recordWriting ⟨env.scope, ⟨m.sink.position, l.sink.position⟩, env.place⟩ := by
    refine (writeValue_advances hf v { m with stack := rest } ?_).bind fun _ l ⟨_, hl⟩ => .done ⟨l, hl, rfl, ?_⟩
    · exact ⟨⟨[], .refl _ _, .refl _, .refl _⟩, fun _ _ _ _ h => h⟩
    · have hearly : l.frames.isEarly env.scope = false := (hl.loud hm).early
      exact if_neg (by rw [hearly]; exact Bool.false_ne_true)
  rw [perform, Instr.convertM, pure_bind, step, Attempt.run_lift_bind, bind_apply, hpop]
  change (((liftM pop : Attempt Value) >>= _).run _).Within _ _
  rw [Attempt.run_lift_bind, bind_apply, pop]
  have hnext (v : Value) (rest : List Value) : (((liftM (writeExpression settings env options v) : Attempt Unit) >>=
      fun _ => pure Flow.next).run { m with stack := rest }).Within (writes settings bound start env m) fun flow k =>
        flow = some .next ∧ ∃ l, m.Advances (Trace.inWrite settings bound start env.scope) m.frames.size l ∧
          k.sink = l.sink ∧
          k.frames = l.frames.recordWriting ⟨env.scope, ⟨m.sink.position, l.sink.position⟩, env.place⟩ := by
    rw [Attempt.run_lift_bind, bind_apply]
    exact (hwrite v rest).bind fun _ k hk => .done ⟨rfl, hk⟩
  dsimp only
  cases stack with
  | nil => exact .fallback (hnext .null [])
  | cons v rest => exact hnext v rest

end

/-! ## Instructions -/

/-- In front of an instruction there are texts on the stack, for all lines right in front that put one there. -/
def Machine.Primed (m : Machine) (env : Env) : Prop :=
  ∀ n, (∀ j, m.frames.next env.scope ≤ j + n → j < m.frames.next env.scope → env.program.Pushes j) →
    n ≤ m.frames.next env.scope → ∃ (texts : List String) (stack : List Value), m.stack = texts.map .text ++ stack ∧ texts.length = n

namespace Program.Direct

variable {p : Program} {a : Nat} {l : Line Nat Nat}

/-- An instruction of a direct template writes or evaluates. -/
theorem instr (h : p.Direct) (hl : p.lines[a]? = some l) : (∃ set, l.instr = .write set) ∨ l.instr.Evaluates := by
  obtain ⟨i, place⟩ := l
  cases i with
  | write set => exact .inl ⟨set, rfl⟩
  | propertyAt => exact absurd hl h.not_propertyAt
  | builtin function => exact .inr (.inr (.inr ⟨function, rfl, h.builtin hl⟩))
  | render => exact .inr (.inr (.inl rfl))
  | _ => exact .inr (.inl rfl)

end Program.Direct

section

variable {env : Env} {m k : Machine} {n : Nat} {new : List Event} {line : Line Nat Nat}

/-- Nothing lies between the operands of an instruction that no text is in front of. -/
theorem Machine.Primed.of_bare (h : ∀ a, m.frames.next env.scope = a + 1 → ¬ env.program.Pushes a) : m.Primed env := by
  intro n hpushes hn
  cases n with
  | zero => exact ⟨[], m.stack, rfl, rfl⟩
  | succ n =>
    obtain ⟨a, ha⟩ := Nat.exists_eq_add_one_of_ne_zero (Nat.ne_zero_of_lt hn)
    exact absurd (hpushes a (by omega) (by omega)) (h a ha)

/-- An instance starts with its first instruction. -/
theorem Machine.Primed.entered {caller : Option Env} {callee : Instance} (he : m.enter caller callee = (env, k)) :
    k.Primed env := by
  refine .of_bare fun a ha => ?_
  cases he
  exact nomatch ha.symm.trans (m.frames.next_enter _ _).1

/-- A text that is put on the stack is the first of those in front. -/
theorem Machine.Primed.push (h : m.Primed env) (hnext : k.frames.next env.scope = m.frames.next env.scope + 1) {s : String}
    (hstack : k.stack = .text s :: m.stack) : k.Primed env := by
  intro n hpushes hn
  cases n with
  | zero => exact ⟨[], k.stack, rfl, rfl⟩
  | succ n =>
    obtain ⟨texts, stack, hm, rfl⟩ := h n (fun j hj hlt => hpushes j (by omega) (by omega)) (by omega)
    exact ⟨s :: texts, stack, by rw [hstack, hm]; rfl, rfl⟩

/-- Setting the address of an instance is no more than that. -/
theorem Machine.goes_setNext (m : Machine) (scope address : Nat) :
    m.Goes scope (m.changeFrames fun f => f.setNext scope address) [] := ⟨.setNext (Nat.le_refl _) _, .refl _, .refl _⟩

theorem Flow.goes (flow : Flow) (env : Env) (m : Machine) : m.Goes env.scope (m.changeFrames (flow.apply env.scope)) [] := by
  cases flow with
  | next => exact .refl _ _
  | jump target => exact m.goes_setNext _ _

/-- What records only what runs early lays out the frame further. -/
theorem Machine.Goes.advances (h : m.Goes n k new) (hnew : ∀ e ∈ new, e.IsEarly) :
    m.Advances (Trace.inFrame settings bound start env.scope) n k := by
  refine ⟨⟨new, h⟩, fun t lo a ht hm => ?_⟩
  have hfirst : ∀ i ≤ new.length, Trace.inFrame settings bound start env.scope t lo k.sink.position a
      (m.frames.log.size + i) := by
    intro i hi
    induction i with
    | zero => exact Frames.InFrame.upto hm h.sink.position
    | succ i ih =>
      have hevent : new[i]? = some new[i] := List.getElem?_eq_getElem hi
      exact .early (ih (Nat.le_of_lt hi)) (h.event ht hevent) (hnew _ (List.getElem_mem hi))
  exact h.size_log ▸ hfirst _ (Nat.le_refl _)

/-- After an instruction, the next one finds its texts in front. -/
theorem Machine.Primed.next (hm : m.Primed env) (hs : env.scope < m.frames.size)
    (hline : env.program.lines[m.frames.next env.scope]? = some line) {flow : Flow} (hk : m.Goes env.scope k new)
    (hnext : flow = .next → k.frames.next env.scope = m.frames.next env.scope + 1)
    (htarget : ∀ target, flow = .jump target → line.instr.target? = some target)
    (htext : ∀ id, line.instr = .pushText id → flow = .next ∧ ∃ s, k.stack = .text s :: m.stack) :
    (k.changeFrames (flow.apply env.scope)).Primed env := by
  by_cases htexts : ∃ id, line.instr = .pushText id
  · obtain ⟨id, hid⟩ := htexts
    obtain ⟨rfl, s, hstack⟩ := htext id hid
    exact hm.push (hnext rfl) hstack
  · refine .of_bare fun a ha => ?_
    cases flow with
    | next =>
      cases ha.symm.trans (hnext rfl)
      rintro ⟨id, place, hpush⟩
      cases hline.symm.trans hpush
      exact htexts ⟨id, rfl⟩
    | jump target =>
      have hlive : env.scope < k.frames.size := Nat.lt_of_lt_of_le hs hk.frames.size
      cases ha.symm.trans (k.frames.next_setNext hlive _)
      exact Program.not_pushes_of_target hline (htarget _ rfl)

/-- What the state is when an instruction has been carried out: the frame is laid out further, and what is carried out
next finds its texts in front. -/
structure Machine.Carried (m : Machine) (settings : Settings) (bound : Instance) (start : Machine) (env : Env)
    (flow : Option Flow) (k : Machine) : Prop where
  advances : m.Advances (Trace.inFrame settings bound start env.scope) env.scope k
  primed : ∀ f ∈ flow, (k.changeFrames (f.apply env.scope)).Primed env

section

variable {flow : Option Flow} {visits : List Visit}

/-- The state in which an instruction is carried out: the address is that of the next one. -/
abbrev Machine.fetched (m : Machine) (env : Env) : Machine :=
  m.changeFrames fun f => f.setNext env.scope (m.frames.next env.scope + 1)

/-- An instruction that evaluates. -/
theorem Machine.Loud.evaluates (hm : m.Loud env.scope) (hp : m.Primed env)
    (hline : env.program.lines[m.frames.next env.scope]? = some line) (hi : line.instr.Evaluates)
    (does : Follows settings ((perform settings (env.atPlace line.span) line.instr).run (m.fetched env)) flow visits k) :
    m.Carried settings bound start env flow k := by
  have hfetch : m.Goes env.scope (m.fetched env) [] := m.goes_setNext _ _
  have hloud := hm.goes hfetch
  obtain ⟨htarget, new, hk, hnew⟩ := (hushed_kept settings).follows does
    (@perform_evaluates settings (env.atPlace line.span) _ hloud.retained hloud.live _ hi)
  have hgoes : m.Goes env.scope k new := hfetch.trans (hk.mono (Nat.le_of_lt hloud.live))
  have hnext : k.frames.next env.scope = m.frames.next env.scope + 1 :=
    (hk.frames.next _ hloud.live).trans (m.frames.next_setNext hm.live _)
  refine ⟨hgoes.advances hnew, fun f hf => ?_⟩
  cases hf
  refine hp.next hm.live hline hgoes (fun _ => hnext) (fun target h => htarget target (h ▸ rfl)) fun id hid => ?_
  rw [hid] at does htarget
  have hpush := @perform_pushText settings (env.atPlace line.span) (hushed.permit (env.atPlace line.span))
    (m.fetched env) id
  refine ⟨?_, (hushed_kept settings).follows does hpush⟩
  cases f with
  | next => rfl
  | jump target => cases htarget target rfl

/-- An instruction that writes, when its course leads to what it stays within. -/
theorem Machine.Loud.wrote (hm : m.Loud env.scope) (hp : m.Primed env) (hd : env.program.Direct)
    (carries : Carries settings bound start env line m k) {set : OptionSet} (hi : line.instr = .write set)
    (hwrite : ∀ post : Option Flow → Machine → Prop,
      ((perform settings (env.atPlace line.span) line.instr).run (m.fetched env)).Within
        (writes settings bound start (env.atPlace line.span) (m.fetched env)) post → post flow k) :
    m.Carried settings bound start env flow k := by
  obtain ⟨i, place⟩ := line
  cases hi
  have hfetch : m.Goes env.scope (m.fetched env) [] := m.goes_setNext _ _
  have hloud := hm.goes hfetch
  obtain ⟨hf, b, hb, hpushes⟩ := hd.write carries.inside
  obtain ⟨texts, stack, hstack, hn⟩ := hp set.names.length (fun j hj hlt => hpushes j (by omega) hlt) (by omega)
  obtain ⟨rfl, l, ⟨⟨new, hl⟩, hcalls⟩, hsink, hframes⟩ :=
    hwrite _ (@perform_write settings bound start (env.atPlace place) _ hloud _ hf _ _ hstack hn)
  let w : Writing := ⟨env.scope, ⟨m.sink.position, l.sink.position⟩, place⟩
  have hrecord : l.Goes (m.fetched env).frames.size k [.wrote w] :=
    ⟨hframes ▸ .recordWriting (hl.frames.retained.trans hloud.retained) w, hsink ▸ .refl _, hsink ▸ .refl _⟩
  have hk := hl.trans hrecord
  have hgoes := hfetch.trans (hk.mono (Nat.le_of_lt hloud.live))
  have hnext : k.frames.next env.scope = m.frames.next env.scope + 1 :=
    (hk.frames.next _ hloud.live).trans (m.frames.next_setNext hm.live _)
  refine ⟨⟨⟨_, hgoes⟩, fun t lo a ht hlo => ?_⟩, fun f hf => ?_⟩
  · have hlast : k.frames.log.size = l.frames.log.size + 1 := hrecord.size_log
    rw [hlast, hsink]
    refine .wrote (w := w) hlo (hcalls t _ _ (hrecord.before ht) (.text (Nat.le_refl _))) (hrecord.event ht (i := 0) rfl) ?_ rfl
      (Nat.le_refl _)
    exact (Event.Made.wrote carries rfl).denotes hm.sink hgoes ht hlast (hsink ▸ rfl)
  · cases hf
    exact hp.next hm.live carries.inside hgoes (fun _ => hnext) nofun nofun

/-- Instructions of a direct template lay out their frame, if writes lead to what they stay within. -/
theorem Machine.Loud.carried (hm : m.Loud env.scope) (hp : m.Primed env) (hd : env.program.Direct)
    (h : Reached settings bound start (.running env m)) {address : Nat} (here : m.frames.next env.scope = address)
    (inside : env.program.lines[address]? = some line)
    (does : Follows settings ((perform settings (env.atPlace line.span) line.instr).run
      (m.changeFrames fun f => f.setNext env.scope (address + 1))) flow visits k)
    (hwrite : ∀ post : Option Flow → Machine → Prop,
      ((perform settings (env.atPlace line.span) line.instr).run
        (m.changeFrames fun f => f.setNext env.scope (address + 1))).Within (writes settings bound start
          (env.atPlace line.span) (m.changeFrames fun f => f.setNext env.scope (address + 1))) post → post flow k) :
    m.Carried settings bound start env flow k := by
  subst here
  rcases hd.instr inside with ⟨set, hi⟩ | hi
  · exact hm.wrote hp hd ⟨h, inside, _, _, does⟩ hi hwrite
  · exact hm.evaluates hp inside hi does

end

end

/-! ## Runs -/

/-- An instance that is entered gets a frame of its own, below that of its caller. -/
theorem Machine.entered_goes {caller : Option Env} {callee : Instance} {env : Env} {m l : Machine}
    (he : m.enter caller callee = (env, l)) : m.Goes m.frames.size l [] ∧ env.scope = m.frames.size ∧
      env.scope < l.frames.size ∧ env.here.bound = callee ∧ l.sink = m.sink ∧
        l.frames.parent? env.scope = caller.map Env.scope := by
  cases he
  refine ⟨⟨.enter _ _ _, .refl _, .refl _⟩, rfl, ?_, rfl, rfl, ?_⟩
  · exact Nat.lt_of_lt_of_eq (Nat.lt_succ_self _) (m.frames.size_enter _ _).symm
  · exact (m.frames.parent?_enter _ _ _).trans (if_pos rfl)

/-- Leaving a frame that does not run early records its completion. -/
theorem Machine.Loud.leave {env : Env} {l : Machine} (h : l.Loud env.scope) (n first height : Nat) :
    l.Goes n (l.leave env first height)
      [.completed ⟨env.scope, env.here.bound.name, ⟨first, l.sink.position⟩, false⟩] := by
  refine ⟨?_, .refl _, .refl _⟩
  rw [Machine.leave, Machine.changeFrames]
  dsimp only
  rw [Frames.exit_retained _ ((l.frames.retained_recordCompletion _).trans h.retained), h.early]
  exact .recordCompletion h.retained _

/-- An instance that has run in a frame that does not run early has been completed, and its frame is laid out. -/
theorem Machine.Loud.completed {caller : Option Env} {callee : Instance} {env : Env} {m l₀ l k : Machine}
    (hm : (Sink.output none).After m.sink) (he : m.enter caller callee = (env, l₀)) (hloud : l₀.Loud env.scope)
    (ran : Ran settings bound start callee m k)
    (hrun : l₀.Advances (Trace.inFrame settings bound start env.scope) env.scope l)
    (hk : k = l.leave env m.sink.position m.stack.length) :
    ∃ c new, c.scope = m.frames.size ∧ c.early = false ∧ c.output = ⟨m.sink.position, k.sink.position⟩ ∧
      m.Goes m.frames.size k (new ++ [.completed c]) ∧
      ∀ t, k.Before t → t.frames.log[m.frames.log.size + new.length]? = some (.completed c) ∧
        t.Denotes settings bound start (m.frames.log.size + new.length) m.frames.log.size (.completed c) ∧
        t.frames.parent? c.scope = caller.map Env.scope ∧
        t.frames.InFrame (t.Denotes settings bound start) c.scope c.output.start c.output.stop m.frames.log.size
          (m.frames.log.size + new.length) := by
  obtain ⟨henter, hscope, hlive, rfl, hsink, hparent⟩ := Machine.entered_goes he
  obtain ⟨⟨new, hl⟩, hbody⟩ := hrun
  have hleave := (hloud.goes hl).leave m.frames.size m.sink.position m.stack.length
  rw [← hk] at hleave
  have hend : k.sink = l.sink := hk ▸ rfl
  have hfirst : l₀.frames.log.size = m.frames.log.size := henter.size_log
  have hsize : l.frames.log.size = m.frames.log.size + new.length := hl.size_log.trans (hfirst ▸ rfl)
  have hgoes := henter.trans ((hscope ▸ hl).trans hleave)
  rw [List.nil_append, hscope] at hgoes
  refine ⟨⟨m.frames.size, env.here.bound.name, ⟨m.sink.position, k.sink.position⟩, false⟩, new, rfl, rfl, rfl, hend ▸ hgoes,
    fun t ht => ?_⟩
  have hbefore := hleave.before ht
  have hevent := hleave.event ht (i := 0) rfl
  have hframe := hbody t _ _ hbefore (.text (Nat.le_refl _))
  rw [Trace.inFrame, hscope, hsize, hfirst, hsink, ← hend] at hframe
  rw [Nat.add_zero, hsize, hscope, ← hend] at hevent
  refine ⟨hevent, (Event.Made.completed ran).denotes hm hgoes ht (hleave.size_log.trans (hsize ▸ rfl)) rfl, ?_, hframe⟩
  rw [← hscope, hbefore.parent _ (hloud.goes hl).live, hl.frames.parent? hlive, hparent]

/-- An instance that is called below a frame that does not run early is laid out in the write that calls it. -/
theorem Machine.Loud.called {caller env : Env} {callee : Instance} {m l₀ l k : Machine} (hm : m.Loud caller.scope)
    (he : m.enter (some caller) callee = (env, l₀)) (ran : Ran settings bound start callee m k)
    (hrun : l₀.Loud env.scope → l₀.Advances (Trace.inFrame settings bound start env.scope) env.scope l)
    (hk : k = l.leave env m.sink.position m.stack.length) :
    m.Advances (Trace.inWrite settings bound start caller.scope) m.frames.size k := by
  obtain ⟨henter, -, hlive, -, hsink, -⟩ := Machine.entered_goes he
  have hloud : l₀.Loud env.scope := ⟨henter.frames.retained.trans hm.retained, hlive,
    (Machine.isEarly_enter he).trans hm.early, hsink ▸ hm.sink⟩
  obtain ⟨c, new, hscope, hearly, houtput, hgoes, hc⟩ := Machine.Loud.completed hm.sink he hloud ran (hrun hloud) hk
  refine ⟨⟨_, hgoes⟩, fun t lo a ht hlo => ?_⟩
  obtain ⟨hevent, hknown, hparent, hframe⟩ := hc t ht
  have hlast : k.frames.log.size = m.frames.log.size + new.length + 1 := hgoes.size_log.trans (by
    rw [List.length_append, ← Nat.add_assoc]
    rfl)
  rw [hlast]
  exact .called (houtput ▸ hlo) hframe hevent hknown hearly hparent (hscope ▸ hm.live)
    (Nat.le_of_eq (by rw [houtput]))

mutual

/-- An instance that a write calls is laid out in it. -/
theorem Invokes.laid (hd : ∀ env m, Reached settings bound start (.running env m) → env.program.Direct)
    {caller : Option Env} {callee : Instance} {m k : Machine} {visits : List Visit} :
    Invokes settings caller callee m visits k → ∀ {env e : Env} {address : Nat} {rest : Machine → Course (Option Flow)},
      caller = some e → Reached settings bound start (.carrying env address (.call e callee m rest)) → m.Loud e.scope →
      m.Advances (Trace.inWrite settings bound start e.scope) m.frames.size k
  | .refused _ hk, _, _, _, _, _, _, _ => hk ▸ ⟨⟨[], .refl _ _, .refl _, .refl _⟩, fun _ _ _ _ h => h⟩
  | .entered shallow he hr, _, _, _, _, hc, h, hm => by
      subst hc
      exact hm.called he (.called h (.entered shallow he hr))
        (fun hloud => hr.laid hd (h.call (shallow _ rfl) he) hloud (.entered he)) rfl

/-- An instance that runs lays out its frame. -/
theorem Runs.laid (hd : ∀ env m, Reached settings bound start (.running env m) → env.program.Direct) {env : Env}
    {m k : Machine} {addresses : List Nat} {visits : List Visit} : Runs settings env m addresses visits k →
      Reached settings bound start (.running env m) → m.Loud env.scope → m.Primed env →
      m.Advances (Trace.inFrame settings bound start env.scope) env.scope k
  | .ends _, _, _, _ => .refl _ _
  | .fails here inside does, h, hm, hp =>
      (hm.carried hp (hd _ _ h) h here inside does fun _ hw =>
        does.laid hd (.fetch h here inside) hw (hm.goes (m.goes_setNext _ _))).advances
  | .continues here inside does run, h, hm, hp =>
      have hfetch := Reached.fetch h here inside
      have hcarried := hm.carried hp (hd _ _ h) h here inside does fun _ hw =>
        does.laid hd hfetch hw (hm.goes (m.goes_setNext _ _))
      have hstep := hcarried.advances.trans ((Flow.goes _ env _).advances nofun)
      hstep.trans (run.laid hd (.next (does.arrives hfetch)) (hstep.loud hm) (hcarried.primed _ rfl))

/-- A write leads to what it stays within, as the instances that it calls are laid out in it. -/
theorem Follows.laid (hd : ∀ env m, Reached settings bound start (.running env m) → env.program.Direct) {env e : Env}
    {address : Nat} {m : Machine} {course : Course (Option Flow)} {flow : Option Flow} {k : Machine} {visits : List Visit}
    {post : Option Flow → Machine → Prop} : Follows settings course flow visits k →
      Reached settings bound start (.carrying env address course) → course.Within (writes settings bound start e m) post →
      m.Loud e.scope → post flow k
  | .done, _, .done hp, _ => hp
  | .call hi hf, h, .call hC hl hrest, hm => by
      obtain ⟨rfl, rfl⟩ := hC
      have hcall := hi.laid hd rfl h (hl.loud hm)
      have hsize := hl.1.elim fun _ hl => hl.frames.size
      exact hf.laid hd (.back h hi) (hrest _ (hl.trans (hcall.mono hsize))) hm

end

/-! ## Traces -/

/-- The ranges of a trace denote its output. This is about expressions and about frames that do not run early. -/
structure Trace.Ranged (settings : Settings) (bound : Instance) (start : Machine) (t : Trace) : Prop where
  /-- Each range is a part of the output, which is what was written then. -/
  denotes : ∀ (n : Nat) (e : Event), t.frames.log[n]? = some e → ¬ e.IsEarly → ∃ since ≤ n, t.Denotes settings bound start n since e
  /-- The range of a frame lies in that of the frame that called it, and in that of the expression that ran it. -/
  housed : ∀ (n : Nat) (c : Completion) (p : Nat), t.frames.log[n]? = some (.completed c) → c.early = false → t.frames.parent? c.scope = some p →
    t.frames.CallerBefore t.frames.log.size n c ∧
      t.frames.RunBefore (t.Denotes settings bound start) t.frames.log.size n c
  /-- The expressions of a frame are in order and do not overlap, and so are the frames that one called. -/
  ordered : ∀ (n n' : Nat) (e e' : Event), t.frames.log[n]? = some e → t.frames.log[n']? = some e' → ¬ e.IsEarly → ¬ e'.IsEarly → n < n' →
    t.frames.Siblings e e' → e.output.Before e'.output
  /-- The range of the outermost frame is the whole output. -/
  whole : ∃ c, t.frames.log.toList.getLast? = some (.completed c) ∧ c.scope = 0 ∧ c.early = false ∧
    t.frames.parent? c.scope = none ∧ c.output = ⟨0, t.output.length⟩

/-- A trace is ranged if all but its last event happened in the outermost frame, which is the last to be completed. -/
theorem Trace.Ranged.of_inFrame {t : Trace} {c : Completion} {n : Nat} (hn : t.frames.log.size = n + 1)
    (hevent : t.frames.log[n]? = some (.completed c)) (hc : c.scope = 0) (hearly : c.early = false)
    (hparent : t.frames.parent? c.scope = none) (houtput : c.output = ⟨0, t.output.length⟩)
    (hknown : t.Denotes settings bound start n 0 (.completed c))
    (hframe : t.frames.InFrame (t.Denotes settings bound start) 0 c.output.start c.output.stop 0 n) :
    t.Ranged settings bound start := by
  have hcounts {i : Nat} {e : Event} (he : t.frames.log[i]? = some e) (hl : ¬ e.IsEarly) : t.frames.Counts 0 (n + 1) i e :=
    ⟨Nat.zero_le _, hn ▸ (Array.getElem?_eq_some_iff.mp he).1, he, hl⟩
  refine ⟨fun i e he hl => ?_, fun i d p he hl hp => ?_, fun i j e e' he he' hl hl' hij hs => ?_, c, ?_, hc, hearly,
    hparent, houtput⟩
  · rcases (hcounts he hl).last hevent with h | ⟨rfl, rfl⟩
    · obtain ⟨-, since, -, hs, hd⟩ := hframe.inside h
      exact ⟨since, hs, hd⟩
    · exact ⟨0, Nat.zero_le _, hknown⟩
  · rw [hn]
    rcases (hcounts he (by simp [Event.IsEarly, hl])).last hevent with h | ⟨rfl, hd⟩
    · obtain ⟨hr, hcaller⟩ := hframe.housed h
      refine ⟨hcaller.elim (fun hp => ?_) (·.mono (Nat.le_succ _)), hr.mono (Nat.le_succ _)⟩
      exact ⟨c, n, hc ▸ hp, h.lt, Nat.lt_succ_self _, hevent, hearly, (hframe.inside h).1⟩
    · cases hd
      cases hp.symm.trans hparent
  · rcases (hcounts he' hl').last hevent with h' | ⟨rfl, rfl⟩
    · exact hframe.ordered { hcounts he hl with lt := Nat.lt_trans hij h'.lt } h' hij hs
    · -- nothing stands beside the outermost frame, as all that happens in it is a part of it
      obtain ⟨p, howner, -⟩ := hframe.owned { hcounts he hl with lt := hij }
      cases hs with
      | children hs => cases howner.symm.trans (hs.trans hparent)
  · rw [List.getLast?_eq_getElem?, Array.length_toList, hn, Array.getElem?_toList]
    exact hevent

/-- The ranges of a trace denote its output, if all templates that run are direct. -/
theorem ranges_denote (i : Interpreter) (bound : Instance) (w : Workspace) :
    let settings : Settings := ⟨i.depthLimit, bound.group, i.listener.getD bound.group.listener⟩
    let start : Machine := ⟨.empty true, [], .output none, 0, w⟩
    (∀ env m, Reached settings bound start (.running env m) → env.program.Direct) →
      ((i.trace bound).run w).1.Ranged settings bound start := by
  intro settings start hd
  obtain ⟨visits, hrender, -⟩ := render_ends i true none bound w
  have ran : Ran settings bound start bound start (i.final true none bound w) := .root hrender
  obtain ⟨t, ht⟩ : ∃ t, ((i.trace bound).run w).1 = t := ⟨_, rfl⟩
  have htrace : t = ⟨(i.final true none bound w).sink.text, (i.final true none bound w).frames⟩ := ht.symm
  rw [ht]
  generalize hk : i.final true none bound w = k at hrender ran htrace
  have hbefore : k.Before t := by
    subst htrace
    exact ⟨List.prefix_rfl, fun _ _ => rfl, "", String.append_empty.symm⟩
  cases hrender with
  | entered _ he run =>
    obtain ⟨henter, hscope, hlive, -, hsink, -⟩ := Machine.entered_goes he
    have hearly : Machine.Loud _ _ := ⟨henter.frames.retained, hlive, by cases he; rfl, hsink ▸ .refl _⟩
    have hrun := run.laid hd (.root he) hearly (.entered he)
    obtain ⟨c, new, hc, hcearly, houtput, hgoes, hknown⟩ :=
      Machine.Loud.completed (m := start) (.refl _) he hearly ran hrun rfl
    obtain ⟨hevent, hdenotes, hparent, hframe⟩ := hknown t hbefore
    have hsize := hgoes.size_log
    rw [List.length_append, ← Nat.add_assoc] at hsize
    rw [show c.scope = 0 from hc] at hframe
    refine .of_inFrame (htrace ▸ hsize) hevent hc hcearly hparent ?_ hdenotes hframe
    rw [houtput, htrace]
    exact congrArg (Extent.mk 0) hgoes.sink.position_eq

/-- A program is direct if it is compiled from a template that is. -/
theorem Program.Direct.of_compile {directory : Directory} {name source : String} {formals : Formals} {p : Program}
    (h : Program.compile directory name formals source = .ok p)
    (hd : (Template.read name formals source).toOption.map Template.direct = some true) : p.Direct := by
  obtain ⟨t, ht, -, hcode, rfl, rfl, rfl⟩ := Program.of_compile h
  rw [ht] at hd
  exact ⟨t, hcode, Option.some.inj hd⟩

/-- Each instance that runs is of the kind of which all are. -/
theorem Facts.Upheld.running {K : Instance → Prop} {W : Workspace → Prop} (h : Facts.Upheld K W settings)
    (hb : bound.All K) {sink : Sink} {cursor : Nat} {w : Workspace} (hw : W w) {retain : Bool} {env : Env} {m : Machine}
    (hr : Reached settings bound ⟨.empty retain, [], sink, cursor, w⟩ (.running env m)) : K env.here.bound.bare := by
  obtain ⟨_, hall, -⟩ := h.lasting.contract.reached (Facts.Upheld.start hb retain sink cursor hw) hr
  exact Instance.All.bare (hall env.here List.mem_cons_self)

/-- Only some programs run, if the instances that a host passes have them and the groups define nothing. -/
theorem Reached.program {ps : List Program} (hps : ∀ p ∈ ps, p.inner = [])
    (hb : bound.All fun i => i.program ∈ ps ∧ i.native = .empty "main") (hs : settings.group = .empty "main")
    {sink : Sink} {cursor : Nat} {w : Workspace} {retain : Bool} {env : Env} {m : Machine}
    (h : Reached settings bound ⟨.empty retain, [], sink, cursor, w⟩ (.running env m)) : env.program ∈ ps := by
  let K (i : Instance) : Prop := i.program ∈ ps ∧ i.native = .empty "main"
  have hnames (name : String) : (Facts.holding K fun _ => True).Resolves settings (Group.resolve (.empty "main") name) ∧
      (Facts.holding K fun _ => True).Resolves settings (Group.resolveInherited (.empty "main") name) :=
    ⟨fun _ _ _ _ => ⟨trivial, fun _ _ h => by cases h⟩, fun _ _ _ _ => ⟨trivial, fun _ _ h => by cases h⟩⟩
  have hinner (i : Instance) (hi : K i) (index : Nat) (program : Program) : i.program.subprogram? index ≠ some program := by
    unfold Program.subprogram?
    split
    · rename_i code hcode
      rw [hps _ hi.1] at hcode
      cases hcode
    · nofun
  have hup : Facts.Upheld K (fun _ => True) settings :=
    ⟨fun _ _ _ _ => trivial, fun name => hs ▸ (hnames name).1, fun i hi name => hi.2 ▸ (hnames name).2,
      fun i hi index program _ h => absurd h (hinner i hi index program)⟩
  exact (hup.running hb trivial h).1

theorem ranges_denote_page :
    let directory : Directory := ⟨fun _ => none, fun _ => none, []⟩
    ∃ p q, Program.compile directory "page" (.ofNames ["box"])
        "<box>, <(box)>: <[box, \"c\", box]; separator=\" \">." = .ok p ∧
      Program.compile directory "box" (.ofNames ["name"]) "a<name>b" = .ok q ∧
      let callee := (Instance.ofProgram (.empty "main") (.empty "main") q none).bind "name" (.text "x")
      let bound := (Instance.ofProgram (.empty "main") (.empty "main") p none).bind "box" (.template callee)
      let settings : Settings := ⟨100, .empty "main", .log⟩
      let start : Machine := ⟨.empty true, [], .output none, 0, .empty⟩
      (∀ env m, Reached settings bound start (.running env m) → env.program.Direct) ∧
        ((({} : Interpreter).trace bound).run .empty).1.Ranged settings bound start := by
  intro directory
  have hok : (Program.compile directory "page" (.ofNames ["box"])
        "<box>, <(box)>: <[box, \"c\", box]; separator=\" \">.").toOption.map (·.inner.isEmpty) = some true ∧
      (Program.compile directory "box" (.ofNames ["name"]) "a<name>b").toOption.map (·.inner.isEmpty) = some true := by
    decide +kernel
  have hdirect : (Template.read "page" (.ofNames ["box"])
        "<box>, <(box)>: <[box, \"c\", box]; separator=\" \">.").toOption.map Template.direct = some true ∧
      (Template.read "box" (.ofNames ["name"]) "a<name>b").toOption.map Template.direct = some true := by
    decide +kernel
  cases hp : Program.compile directory "page" (.ofNames ["box"])
      "<box>, <(box)>: <[box, \"c\", box]; separator=\" \">." with
  | error e =>
    rw [hp] at hok
    cases hok.1
  | ok p =>
  cases hq : Program.compile directory "box" (.ofNames ["name"]) "a<name>b" with
  | error e =>
    rw [hq] at hok
    cases hok.2
  | ok q =>
  rw [hp, hq] at hok
  refine ⟨p, q, rfl, rfl, ?_⟩
  intro callee bound settings start
  have hinner : ∀ r ∈ [p, q], r.inner = [] := List.forall_mem_cons.mpr ⟨List.isEmpty_iff.mp (Option.some.inj hok.1),
    List.forall_mem_singleton.mpr (List.isEmpty_iff.mp (Option.some.inj hok.2))⟩
  have hall : bound.All fun i => i.program ∈ [p, q] ∧ i.native = .empty "main" :=
    .mk ⟨rfl, List.mem_cons_self, rfl⟩ (.cons _ (.template (.mk ⟨rfl, List.mem_cons_of_mem _ List.mem_cons_self, rfl⟩
      (.cons _ (.text _) .nil))) .nil)
  have hd : ∀ env m, Reached settings bound start (.running env m) → env.program.Direct := by
    intro env m h
    rcases List.mem_cons.mp (h.program hinner hall rfl) with hk | hk
    · exact hk ▸ .of_compile hp hdirect.1
    · exact List.mem_singleton.mp hk ▸ .of_compile hq hdirect.2
  exact ⟨hd, ranges_denote {} bound .empty hd⟩

end Stencil
