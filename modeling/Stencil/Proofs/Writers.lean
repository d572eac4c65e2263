import Stencil.Proofs.Facing
import Stencil.Proofs.Sharing
import Stencil.Proofs.Telling
import Stencil.Proofs.Tracing
/-! Writers that fail. A render into a writer with room for some texts goes on beside one into a writer that
never fails, whatever becomes of what it writes. It tells the same, and of the failure once. -/

namespace Stencil

open Rendering

/-! ## What is written -/

/-- A sink of a writer that never fails. -/
structure Sink.Free (s : Sink) : Prop where
  failed : s.failed = false
  room : s.room = none
  nonempty : ∀ text ∈ s.pieces, text ≠ ""

/-- A sink with room for `n` texts beside one of a writer that never fails. Until a write is refused they hold
the same texts; from then on the first one stays as it is. -/
inductive Sink.Beside (n : Nat) : (stopped : Bool) → Sink → Sink → Prop where
  | going {s s'} (free : s'.Free) (failed : s.failed = false) (refused : s.refused = 0) (pieces : s.pieces = s'.pieces)
      (fits : s'.pieces.length ≤ n) (room : s.room = some (n - s'.pieces.length)) : Beside n false s s'
  | stopped {s s'} (free : s'.Free) (failed : s.failed = true) (refused : s.refused = 1)
      (pieces : s.pieces.reverse = s'.pieces.reverse.take n) (exceeds : n < s'.pieces.length) : Beside n true s s'

namespace Sink

variable {n : Nat} {s s' : Sink} {text : String}

/-- The sink with a text behind the others. -/
def add (s : Sink) (text : String) (room : Option Nat) : Sink :=
  { s with written := s.written + text.length, pieces := text :: s.pieces, room }

theorem Free.scratch (origin : Nat) : (scratch origin).Free := ⟨rfl, rfl, nofun⟩

theorem Free.accept (h : s.Free) (text : String) : s.accept? text = some (s.add text none) := by
  unfold accept?
  rw [h.room]
  rfl

theorem Free.add (h : s.Free) (ht : text ≠ "") : (s.add text none).Free :=
  ⟨h.failed, rfl, List.forall_mem_cons.mpr ⟨ht, h.nonempty⟩⟩

theorem Beside.free {stopped : Bool} (h : Beside n stopped s s') : s'.Free := by
  cases h <;> assumption

theorem Beside.failed {stopped : Bool} (h : Beside n stopped s s') : s.failed = stopped := by
  cases h <;> assumption

theorem Beside.pieces {stopped : Bool} (h : Beside n stopped s s') :
    s.pieces.reverse = s'.pieces.reverse.take n := by
  cases h with
  | going _ _ _ pieces fits => rw [pieces, List.take_of_length_le (by simpa using fits)]
  | stopped _ _ _ pieces => exact pieces

theorem Beside.refused {stopped : Bool} (h : Beside n stopped s s') : s.refused = stopped.toNat := by
  cases h <;> assumption

theorem Beside.stopped_iff {stopped : Bool} (h : Beside n stopped s s') : stopped = true ↔ n < s'.pieces.length := by
  cases h with
  | going _ _ _ _ fits => exact ⟨nofun, fun h => absurd fits (Nat.not_le_of_gt h)⟩
  | stopped _ _ _ _ exceeds => exact ⟨fun _ => exceeds, fun _ => rfl⟩

/-- As long as both go on, a text goes to both, or it is the one too many. -/
theorem Beside.accept (h : Beside n false s s') (ht : text ≠ "") :
    (s.accept? text = none ∧ Beside n true s.refuse (s'.add text none)) ∨
      ∃ k, s.accept? text = some k ∧ Beside n false k (s'.add text none) := by
  cases h with
  | going free failed refused pieces fits room =>
    cases hroom : n - s'.pieces.length with
    | zero =>
      -- there was room for `n` texts, and they are all there
      have hn : s'.pieces.length = n := Nat.le_antisymm fits (Nat.le_of_sub_eq_zero hroom)
      refine .inl ⟨by rw [accept?, room, hroom]; rfl, .stopped (free.add ht) rfl (by rw [refuse, refused]) ?_ ?_⟩
      · change s.pieces.reverse = (text :: s'.pieces).reverse.take n
        rw [pieces, List.reverse_cons, List.take_append_of_le_length (by simp [hn]),
          List.take_of_length_le (by simp [hn])]
      · exact Nat.lt_succ_of_le (Nat.le_of_eq hn.symm)
    | succ r =>
      refine .inr ⟨s.add text (some r), by rw [accept?, room, hroom]; rfl, ?_⟩
      refine .going (free.add ht) failed refused (congrArg (text :: ·) pieces) ?_ ?_
      · change s'.pieces.length + 1 ≤ n
        omega
      · change some r = some (n - (s'.pieces.length + 1))
        exact congrArg some (by omega)

theorem Beside.drop (h : Beside n true s s') (ht : text ≠ "") : Beside n true s (s'.add text none) := by
  cases h with
  | stopped free failed refused pieces exceeds =>
    refine .stopped (free.add ht) failed refused ?_ (Nat.lt_succ_of_lt exceeds)
    change s.pieces.reverse = (text :: s'.pieces).reverse.take n
    rw [pieces, List.reverse_cons, List.take_append_of_le_length (by simp [Nat.le_of_lt exceeds])]

end Sink

/-! ## What is told -/

/-- That a writer fails: what a render had told before, and what it tells of it. -/
structure Halt where
  before : Deliveries
  notice : Listener × Diagnostic

/-- The notice is that of an instance which writes. -/
def Halt.Announced (settings : Settings) (x : Halt) : Prop :=
  ∃ (m : Machine) (env : Env), x.notice = (settings.listener, m.diagnostic env .outputFailure [] [writerFailure])

/-- Nothing is told of writers. -/
def Deliveries.Quiet (told : Deliveries) : Prop := ∀ t ∈ told, t.2.kind ≠ .outputFailure

/-- What two renders delivered, behind the same as before. It is the same, but for a notice that the
first one has in between. -/
inductive Deliveries.Beside (settings : Settings) (base : Deliveries) : Option Halt → Deliveries → Deliveries → Prop
    where
  | going {told : Deliveries} (quiet : told.Quiet) : Beside settings base none (base ++ told) (base ++ told)
  | stopped {x : Halt} {after : Deliveries} (announced : x.Announced settings) (before : x.before.Quiet)
      (quiet : after.Quiet) :
      Beside settings base (some x) (base ++ (x.before.push x.notice ++ after)) (base ++ (x.before ++ after))

namespace Deliveries.Beside

variable {settings : Settings} {base ds ds' : Deliveries} {halt : Option Halt}

theorem append (h : Beside settings base halt ds ds') {more : Deliveries} (hm : more.Quiet) :
    Beside settings base halt (ds ++ more) (ds' ++ more) := by
  have hboth {told : Deliveries} (ht : told.Quiet) : (told ++ more).Quiet :=
    fun t h => (Array.mem_append.mp h).elim (ht t) (hm t)
  cases h with
  | going quiet =>
    rw [Array.append_assoc]
    exact .going (hboth quiet)
  | stopped announced before quiet =>
    rw [Array.append_assoc, Array.append_assoc, Array.append_assoc, Array.append_assoc]
    exact .stopped announced before (hboth quiet)

theorem fail (h : Beside settings base none ds ds') {t : Listener × Diagnostic}
    (ht : ∀ before, Halt.Announced settings ⟨before, t⟩) : ∃ x, Beside settings base (some x) (ds.push t) ds' := by
  cases h with
  | @going told quiet =>
    have hx : Beside settings base (some ⟨told, t⟩) (base ++ (told.push t ++ #[])) (base ++ (told ++ #[])) :=
      .stopped (ht told) quiet (Array.forall_mem_empty _)
    rw [Array.append_empty, Array.append_empty, Array.append_push] at hx
    exact ⟨_, hx⟩

end Deliveries.Beside

/-! ## Two renders -/

/-- Where two renders write to: the output, or text that is kept aside, of which none is refused. -/
inductive Outlet where
  | output
  | aside (halt : Option Halt)

/-- The sinks of two renders. While text is kept aside, neither of the writers can fail. -/
def Outlet.Sinks (n : Nat) (halt : Option Halt) : Outlet → Sink → Sink → Prop
  | .output, s, s' => Sink.Beside n halt.isSome s s'
  | .aside known, s, s' => halt = known ∧ s.Free ∧ s'.Free ∧ s.pieces = s'.pieces

/-- What does not depend on the writers of two renders, and what the first one told of its own. -/
structure Limited (settings : Settings) (base : Deliveries) (halt : Option Halt) (m m' : Machine) : Prop where
  frames : m.frames.SameFaces m'.frames
  slots : m.workspace.slots = m'.workspace.slots
  reports : m.workspace.reports = m'.workspace.reports
  told : Deliveries.Beside settings base halt m.workspace.delivered m'.workspace.delivered

/-- Two renders from the same deliveries on, of which the first one has a writer with room for `n` texts. -/
def LimitedTo (settings : Settings) (n : Nat) (base : Deliveries) (o : Outlet) (m m' : Machine) : Prop :=
  ∃ halt, Limited settings base halt m m' ∧ o.Sinks n halt m.sink m'.sink

variable {settings : Settings} {n : Nat} {base : Deliveries} {halt : Option Halt} {o : Outlet} {m m' : Machine}

namespace Limited

theorem withSinks (h : Limited settings base halt m m') (s s' : Sink) (cursor cursor' : Nat) :
    Limited settings base halt { m with sink := s, cursor } { m' with sink := s', cursor := cursor' } :=
  ⟨h.frames, h.slots, h.reports, h.told⟩

theorem report (h : Limited settings base halt m m') (env : Env) {kind : Kind} (hk : kind ≠ .outputFailure)
    (arguments causes : List String) :
    Limited settings base halt (m.report settings env kind arguments causes)
      (m'.report settings env kind arguments causes) := by
  have hd := h.frames.diagnostic_eq env kind arguments causes
  have hquiet : Deliveries.Quiet #[(settings.listener, m'.diagnostic env kind arguments causes)] :=
    fun t ht => (Array.mem_singleton.mp ht) ▸ hk
  have htold := h.told.append hquiet
  rw [← Array.push_eq_append, ← Array.push_eq_append] at htold
  refine ⟨h.frames, h.slots, h.reports, ?_⟩
  rw [Machine.report, Machine.report, hd]
  exact htold

/-- The writer of the first one refuses a text. -/
theorem refuse (h : Limited settings base none m m') (env : Env) :
    ∃ x, Limited settings base (some x)
      (Machine.report settings env .outputFailure [] [writerFailure] { m with sink := m.sink.refuse }) m' :=
  have ⟨x, htold⟩ := h.told.fail fun _ => ⟨{ m with sink := m.sink.refuse }, env, rfl⟩
  ⟨x, h.frames, h.slots, h.reports, htold⟩

end Limited

namespace LimitedTo

variable {A : Accord} {env : Env}

theorem writes (env : Env) (text : String) : Matched A (LimitedTo settings n base o) (fun _ _ => True)
    (writeText settings env text) (writeText settings env text) := by
  intro m m' ⟨halt, h, hs⟩
  rw [writeText_apply, writeText_apply]
  cases he : text.isEmpty with
  | true =>
    rw [Bool.or_true, Bool.or_true]
    exact .done ⟨trivial, halt, h, hs⟩ rfl
  | false =>
    have ht : text ≠ "" := by
      rintro rfl
      cases he
    cases o with
    | aside known =>
      obtain ⟨rfl, hfree, hfree', hp⟩ := hs
      rw [hfree.failed, hfree'.failed, hfree.accept, hfree'.accept]
      exact .done ⟨trivial, halt, h.withSinks _ _ _ _, rfl, hfree.add ht, hfree'.add ht, congrArg (text :: ·) hp⟩ rfl
    | output =>
      have hfree' := hs.free
      rw [hfree'.failed, hfree'.accept]
      cases halt with
      | some x =>
        rw [hs.failed]
        exact .done ⟨trivial, some x, h.withSinks m.sink _ m.cursor _, hs.drop ht⟩ rfl
      | none =>
        rw [hs.failed]
        rcases hs.accept ht with ⟨hnone, hs⟩ | ⟨k, hk, hs⟩
        · obtain ⟨x, hx⟩ := h.refuse env
          rw [hnone]
          exact .done ⟨trivial, some x, hx.withSinks m.sink.refuse _ m.cursor _, hs⟩ rfl
        · rw [hk]
          exact .done ⟨trivial, none, h.withSinks _ _ _ _, hs⟩ rfl

theorem captures {x y : Rendering Unit}
    (h : ∀ o, Matched A (LimitedTo settings n base o) (fun _ _ => True) x y) (o : Outlet) :
    Matched A (LimitedTo settings n base o) Eq (capture x) (capture y) := by
  intro m m' ⟨halt, hm, hs⟩
  rw [capture_apply, capture_apply]
  have hstart : LimitedTo settings n base (.aside halt) { m with sink := .scratch m.cursor }
      { m' with sink := .scratch m'.cursor } :=
    ⟨halt, hm.withSinks _ _ m.cursor m'.cursor, rfl, .scratch _, .scratch _, rfl⟩
  refine (h _ _ _ hstart).bind ?_
  rintro _ _ k k' ⟨_, _, hk, rfl, -, -, hp⟩
  exact .done ⟨by rw [Sink.text, Sink.text, hp], _, hk.withSinks _ _ _ _, hs⟩ rfl

/-- What the slots decide comes to the same in both. -/
theorem inWorkspace {α : Type} {action : StateM Workspace α} (ha : Appends action) :
    Matched A (LimitedTo settings n base o) Eq (Rendering.inWorkspace action) (Rendering.inWorkspace action) := by
  refine .modifyGet (fun _ => rfl) fun ⟨f, stack, sink, cursor, slots, reports, delivered⟩
    ⟨f', stack', sink', cursor', slots', reports', delivered'⟩ ⟨halt, h, hs⟩ => ?_
  cases h.slots
  cases h.reports
  obtain ⟨a, slots, reports, more, hmore, hrun⟩ := ha slots reports
  dsimp only
  rw [hrun, hrun]
  refine ⟨rfl, halt, ⟨h.frames, rfl, rfl, h.told.append fun t ht hk => ?_⟩, hs⟩
  obtain ⟨c, hc⟩ := hmore t ht
  exact hc.category (hk ▸ rfl)

end LimitedTo

/-- Instances keep two renders so. -/
def limited (settings : Settings) (n : Nat) (base : Deliveries) : Facing settings where
  Outlet := Outlet
  state := LimitedTo settings n base
  allowed kind := kind ≠ .outputFailure
  allows _ h := h
  faces _ _ _ := fun ⟨_, h, _⟩ => h.frames
  withFrames _ _ _ _ _ _ _ := fun ⟨halt, h, hs⟩ hf => ⟨halt, ⟨hf, h.slots, h.reports, h.told⟩, hs⟩
  report _ _ _ env _ arguments causes hk := fun ⟨halt, h, hs⟩ => ⟨halt, h.report env hk arguments causes, hs⟩
  writes _ _ := LimitedTo.writes
  captures _ _ _ := LimitedTo.captures
  resolves _ _ name found := LimitedTo.inWorkspace (Group.resolveFound_appends name found)

/-! ## Whole renders -/

theorem Interpreter.final_limited (i : Interpreter) (retain : Bool) (n : Nat) (bound : Instance) (w : Workspace) :
    let settings : Settings := ⟨i.depthLimit, bound.group, i.listener.getD bound.group.listener⟩
    let m := i.final retain (some n) bound w
    let m' := i.final retain none bound w
    ∃ halt : Option Halt, Sink.Beside n halt.isSome m.sink m'.sink ∧ m.workspace.slots = m'.workspace.slots ∧
      m.workspace.reports = m'.workspace.reports ∧
      Deliveries.Beside settings w.delivered halt m.workspace.delivered m'.workspace.delivered := by
  intro settings m m'
  obtain ⟨r⟩ := Reading.nonempty
  have hfree : (Sink.output none).Free := ⟨rfl, rfl, nofun⟩
  have htold : Deliveries.Beside settings w.delivered none w.delivered w.delivered := by
    have hgoing : Deliveries.Beside settings w.delivered none (w.delivered ++ #[]) (w.delivered ++ #[]) :=
      .going (Array.forall_mem_empty _)
    rwa [Array.append_empty] at hgoing
  have hstart : LimitedTo settings n w.delivered .output ⟨.empty retain, [], .output (some n), 0, w⟩
      ⟨.empty retain, [], .output none, 0, w⟩ :=
    ⟨none, ⟨⟨rfl, rfl, fun _ => rfl⟩, rfl, rfl, htold⟩, .going hfree rfl rfl rfl (Nat.zero_le n) rfl⟩
  obtain ⟨_, _, k, k', hk, hk', halt, h, hs⟩ := (limited settings n w.delivered).evaluate r (i.depthLimit + 1) none bound hstart
  -- the code of each render is as its tree
  obtain ⟨j, hj, hstill⟩ := i.final_still r retain (some n) bound w
  obtain ⟨j', hj', hstill'⟩ := i.final_still r retain none bound w
  cases hk.symm.trans hj
  cases hk'.symm.trans hj'
  obtain ⟨-, hsink, -, hw⟩ := Machine.still_eq_iff.mp hstill
  obtain ⟨-, hsink', -, hw'⟩ := Machine.still_eq_iff.mp hstill'
  rw [show m.sink = k.sink from hsink, show m'.sink = k'.sink from hsink', show m.workspace = k.workspace from hw,
    show m'.workspace = k'.workspace from hw']
  exact ⟨halt, hs, h.slots, h.reports, h.told⟩

/-- Rendering counts the text that it gives. -/
theorem Interpreter.renderTo_run (i : Interpreter) (room : Option Nat) (bound : Instance) (w : Workspace) :
    (i.renderTo room bound).run w =
      (((i.final i.retain room bound w).sink.text.length, (i.final i.retain room bound w).sink.text),
        (i.final i.retain room bound w).workspace) := by
  rw [← i.written_eq]
  rfl

/-- In a render a write fails where an instance is: it carries out an instruction, its writer fails then, and
that is told, too, as a delivery of the number. -/
def WriteFails (settings : Settings) (bound : Instance) (start : Machine) (number : Nat)
    (notice : Listener × Diagnostic) : Prop :=
  ∃ env line m k, Carries settings bound start env line m k ∧ m.sink.failed = false ∧ k.sink.failed = true ∧
    m.workspace.delivered.size ≤ number ∧ number < k.workspace.delivered.size ∧
    notice = (settings.listener, m.diagnostic (env.atPlace line.span) .outputFailure [] [writerFailure])

/-- What a render tells of its writer is told where a write fails. -/
theorem Told.writeFails {settings : Settings} {bound : Instance} {start : Machine} {number : Nat} {x : Halt}
    (h : Told settings bound start number x.notice) (hx : x.Announced settings) :
    WriteFails settings bound start number x.notice := by
  obtain ⟨m', env', hnotice⟩ := hx
  cases h with
  | compiling found =>
    obtain ⟨c, hc⟩ := found
    rw [hnotice] at hc
    exact (hc.category rfl).elim
  | @carrying env line m k carries since within tells =>
    obtain ⟨kind, arguments, causes, ht, hk⟩ := tells
    have hd := congrArg Prod.snd (ht.symm.trans hnotice)
    have hkind : kind = .outputFailure := congrArg Diagnostic.kind hd
    have harguments : arguments.take Diagnostic.argumentLimit = [] := congrArg Diagnostic.arguments hd
    have hcauses : causes = [writerFailure] := congrArg Diagnostic.causes hd
    obtain ⟨hbefore, hafter⟩ := hk hkind
    have hnone : arguments = [] := by
      cases arguments with
      | nil => rfl
      | cons => cases harguments
    subst hkind hcauses hnone
    exact ⟨env, line, m, k, carries, hbefore, hafter, since, within, ht⟩

/-- A render whose writer fails goes on and tells so once. Let a writer that never fails get certain texts, none of
them empty. Then one that takes `n` texts and fails from there on gets the first `n` of them and at most one more,
which it refuses, and the render counts what the writer took. It leaves the group as the other render does, and
delivers the same diagnostics, and between them, if there are more than `n` texts, one about the write that
failed. -/
theorem writer_failure_told_once (i : Interpreter) (n : Nat) (bound : Instance) (w : Workspace) :
    let settings : Settings := ⟨i.depthLimit, bound.group, i.listener.getD bound.group.listener⟩
    let start : Machine := ⟨.empty i.retain, [], .output (some n), 0, w⟩
    let full := i.final i.retain none bound w
    let short := i.final i.retain (some n) bound w
    let pieces := full.sink.pieces.reverse
    (i.renderTo none bound).run w = (((String.join pieces).length, String.join pieces), full.workspace) ∧
      (i.renderTo (some n) bound).run w =
        (((String.join (pieces.take n)).length, String.join (pieces.take n)), short.workspace) ∧
      (∀ piece ∈ pieces, piece ≠ "") ∧ short.sink.pieces.reverse = pieces.take n ∧
      short.sink.refused = (if pieces.length ≤ n then 0 else 1) ∧
      short.workspace.slots = full.workspace.slots ∧ short.workspace.reports = full.workspace.reports ∧
      ∃ told : Deliveries, full.workspace.delivered = w.delivered ++ told ∧ told.Quiet ∧
        (pieces.length ≤ n → short.workspace.delivered = w.delivered ++ told) ∧
        (n < pieces.length → ∃ before after notice, told = before ++ after ∧
          short.workspace.delivered = w.delivered ++ (before.push notice ++ after) ∧
          WriteFails settings bound start (w.delivered.size + before.size) notice) := by
  intro settings start full short pieces
  obtain ⟨halt, hsinks, hslots, hreports, htold⟩ := i.final_limited i.retain n bound w
  have hpieces : short.sink.pieces.reverse = pieces.take n := hsinks.pieces
  have hstopped : halt.isSome = true ↔ n < pieces.length := by
    rw [List.length_reverse]
    exact hsinks.stopped_iff
  have hlimited := i.renderTo_run (some n) bound w
  have htext : short.sink.text = String.join (pieces.take n) := congrArg String.join hpieces
  have hnonempty (piece : String) (hp : piece ∈ pieces) : piece ≠ "" :=
    hsinks.free.nonempty piece (List.mem_reverse.mp hp)
  have hrefused : short.sink.refused = if pieces.length ≤ n then 0 else 1 := by
    rw [hsinks.refused]
    split
    · rename_i hle
      rw [Bool.eq_false_iff.mpr fun h => absurd (hstopped.mp h) (Nat.not_lt_of_le hle)]
      rfl
    · rename_i hgt
      rw [hstopped.mpr (Nat.lt_of_not_le hgt)]
      rfl
  rw [hlimited, htext]
  refine ⟨i.renderTo_run none bound w, rfl, hnonempty, hpieces, hrefused, hslots, hreports, ?_⟩
  obtain ⟨more, hmore, hsites⟩ := i.told i.retain (some n) bound w
  -- the notice has the number that it was delivered with, which tells where that was
  generalize full.workspace.delivered = ds' at htold ⊢
  generalize hds : short.workspace.delivered = ds at htold
  cases htold with
  | @going told quiet =>
    refine ⟨told, rfl, quiet, fun _ => rfl, fun hgt => ?_⟩
    cases hstopped.mpr hgt
  | @stopped x after announced before quiet =>
    refine ⟨x.before ++ after, rfl, fun t ht => (Array.mem_append.mp ht).elim (before t) (quiet t), fun hle => ?_,
      fun _ => ⟨x.before, after, x.notice, rfl, rfl, ?_⟩⟩
    · exact absurd (hstopped.mp rfl) (Nat.not_lt_of_le hle)
    · have hx : more[x.before.size]? = some x.notice := by
        rw [← (Array.append_right_inj _).mp (hds.symm.trans hmore), Array.getElem?_append_left (by simp),
          Array.getElem?_push_size]
      exact (hsites _ _ hx).writeFails announced

end Stencil
