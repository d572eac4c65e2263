import Stencil.Proofs.Writers
/-! Renders append. What an instance writes, and all else that comes of it, does not depend on what was
written before it. -/

namespace Stencil

open Rendering

/-! ## Two sinks -/

/-- Two sinks of writers that never fail. The first one holds some texts in front of what the second one holds. -/
structure Sink.Behind (base : List String) (s s' : Sink) : Prop where
  free : s.Free
  free' : s'.Free
  pieces : s.pieces = s'.pieces ++ base

namespace Sink

variable {base : List String} {s s' : Sink} {text : String}

theorem Behind.scratch (origin origin' : Nat) : (scratch origin).Behind [] (scratch origin') :=
  ⟨.scratch _, .scratch _, rfl⟩

/-- A sink holds what it does in front of what is put aside. -/
theorem Free.behind (h : s.Free) (origin : Nat) : s.Behind s.pieces (Sink.scratch origin) := ⟨h, .scratch _, rfl⟩

theorem Behind.add (h : s.Behind base s') (ht : text ≠ "") : (s.add text none).Behind base (s'.add text none) :=
  ⟨h.free.add ht, h.free'.add ht, congrArg (text :: ·) h.pieces⟩

theorem Behind.text_eq (h : s.Behind base s') : s.text = String.join base.reverse ++ s'.text := by
  rw [Sink.text, Sink.text, h.pieces, List.reverse_append, String.join_append]

end Sink

/-! ## Two renders -/

/-- Two renders that see the same, whatever they write to. -/
structure Machine.Alongside (m m' : Machine) : Prop where
  frames : m.frames.SameFaces m'.frames
  workspace : m.workspace = m'.workspace

/-- Two renders that see the same. The first one has written some texts more. -/
def Appended (base : List String) (m m' : Machine) : Prop := m.Alongside m' ∧ m.sink.Behind base m'.sink

namespace Machine.Alongside

variable {m m' : Machine}

/-- States that differ in what only code needs see the same. -/
theorem of_still (h : m.still = m'.still) : m.Alongside m' := by
  obtain ⟨hf, -, -, hw⟩ := Machine.still_eq_iff.mp h
  have hretained : m.frames.still.retained = m'.frames.still.retained := congrArg Frames.retained hf
  refine ⟨⟨?_, hretained, fun scope => ?_⟩, hw⟩
  · rw [← Frames.still_size, hf, Frames.still_size]
  · rw [← Frames.face?_still, hf, Frames.face?_still]

theorem refl (m : Machine) : m.Alongside m := .of_still rfl

theorem symm (h : m.Alongside m') : m'.Alongside m :=
  ⟨⟨h.frames.size.symm, h.frames.retained.symm, fun scope => (h.frames.face scope).symm⟩, h.workspace.symm⟩

theorem trans {k : Machine} (h : m.Alongside m') (h' : m'.Alongside k) : m.Alongside k :=
  ⟨⟨h.frames.size.trans h'.frames.size, h.frames.retained.trans h'.frames.retained,
    fun scope => (h.frames.face scope).trans (h'.frames.face scope)⟩, h.workspace.trans h'.workspace⟩

theorem withSinks (h : m.Alongside m') (s s' : Sink) (cursor cursor' : Nat) :
    Alongside { m with sink := s, cursor } { m' with sink := s', cursor := cursor' } := ⟨h.frames, h.workspace⟩

theorem report (h : m.Alongside m') (settings : Settings) (env : Env) (kind : Kind) (arguments causes : List String) :
    (m.report settings env kind arguments causes).Alongside (m'.report settings env kind arguments causes) := by
  have hd := h.frames.diagnostic_eq env kind arguments causes
  refine ⟨h.frames, ?_⟩
  rw [Machine.report, Machine.report, hd, h.workspace]

end Machine.Alongside

variable {settings : Settings} {base : List String} {m m' : Machine}

namespace Appended

variable {A : Accord}

theorem writes (settings : Settings) (env : Env) (text : String) :
    Matched A (Appended base) (fun _ _ => True) (writeText settings env text) (writeText settings env text) := by
  intro m m' ⟨h, hs⟩
  rw [writeText_apply, writeText_apply, hs.free.failed, hs.free'.failed]
  cases he : text.isEmpty with
  | true => exact .done ⟨trivial, h, hs⟩ rfl
  | false =>
    have ht : text ≠ "" := by
      rintro rfl
      cases he
    rw [hs.free.accept, hs.free'.accept]
    exact .done ⟨trivial, h.withSinks _ _ _ _, hs.add ht⟩ rfl

theorem captures {x y : Rendering Unit} (h : ∀ base, Matched A (Appended base) (fun _ _ => True) x y)
    (base : List String) : Matched A (Appended base) Eq (capture x) (capture y) := by
  intro m m' ⟨hm, hs⟩
  rw [capture_apply, capture_apply]
  refine (h [] _ _ ⟨hm.withSinks _ _ m.cursor m'.cursor, .scratch m.cursor m'.cursor⟩).bind ?_
  rintro _ _ k k' ⟨-, hk, haside⟩
  exact .done ⟨haside.text_eq.trans String.empty_append, hk.withSinks _ _ _ _, hs⟩ rfl

theorem inWorkspace {α : Type} (action : StateM Workspace α) :
    Matched A (Appended base) Eq (Rendering.inWorkspace action) (Rendering.inWorkspace action) := by
  refine .modifyGet (fun _ => rfl) fun m m' ⟨h, hs⟩ => ?_
  rw [h.workspace]
  exact ⟨rfl, ⟨h.frames, rfl⟩, hs⟩

end Appended

/-- Instances keep two renders so. -/
def appended (settings : Settings) : Facing settings where
  Outlet := List String
  state := Appended
  allowed _ := True
  allows _ _ := trivial
  faces _ _ _ h := h.1.frames
  withFrames _ _ _ _ _ _ _ h hf := ⟨⟨hf, h.1.workspace⟩, h.2⟩
  report _ _ _ env kind arguments causes _ h := ⟨h.1.report settings env kind arguments causes, h.2⟩
  writes _ _ := Appended.writes settings
  captures _ _ _ := Appended.captures
  resolves _ _ _ _ := Appended.inWorkspace _

/-! ## Whole instances -/

/-- Running an instance keeps two renders together. -/
theorem invoke_appended (depth : Nat) (caller : Option Env) (bound : Instance) (h : Appended base m m') :
    (invoke settings depth caller bound m).Ends (fun _ _ => Appended base)
      (invoke settings depth caller bound m') := by
  obtain ⟨r⟩ := Reading.nonempty
  -- the code of each is as its tree
  obtain ⟨_, _, k, j, hk, hj, hleft⟩ := invoke_ends r settings depth caller bound (m := m) rfl
  obtain ⟨_, _, k', j', hk', hj', hleft'⟩ := invoke_ends r settings depth caller bound (m := m') rfl
  obtain ⟨_, _, i, i', hi, hi', htrees, hs⟩ := (appended settings).evaluate r depth caller bound h
  cases hi.symm.trans hj
  cases hi'.symm.trans hj'
  obtain ⟨-, hsink, -, -⟩ := Machine.still_eq_iff.mp hleft.still
  obtain ⟨-, hsink', -, -⟩ := Machine.still_eq_iff.mp hleft'.still
  refine ⟨(), (), k, k', hk, hk', ((Machine.Alongside.of_still hleft.still).trans htrees).trans
    (Machine.Alongside.of_still hleft'.still).symm, ?_⟩
  rw [hsink, hsink']
  exact hs

/-- What instances write, and all else that comes of them, does not depend on what was written before. -/
def HistoryFree (run : Env → Instance → Rendering Unit) : Prop :=
  ∀ ⦃base m m'⦄ (env : Env) (bound : Instance), Appended base m m' →
    (run env bound m).Ends (fun _ _ => Appended base) (run env bound m')

/-- An instance that runs in its place writes what it gives when its text is kept aside. -/
theorem HistoryFree.captured {run : Env → Instance → Rendering Unit} (hrun : HistoryFree run) (env : Env)
    (bound : Instance) (h : m.Alongside m') (hs : m.sink.Free) :
    ∃ k k' text, handle run (call env bound) m = .done () k ∧
      handle run (capture (call env bound)) m' = .done text k' ∧
      k.Alongside k' ∧ k.sink.Free ∧ k.sink.text = m.sink.text ++ text := by
  have hstart : Appended m.sink.pieces m { m' with sink := .scratch m'.cursor } :=
    ⟨⟨h.frames, h.workspace⟩, hs.behind m'.cursor⟩
  obtain ⟨_, _, k, k', hk, hk', hend, hsinks⟩ := hrun env bound hstart
  refine ⟨k, { k' with sink := m'.sink, cursor := m'.cursor }, k'.sink.text, ?_, ?_, ⟨hend.frames, hend.workspace⟩,
    hsinks.free, hsinks.text_eq⟩
  · change (run env bound m).bind _ = _
    rw [hk]
    rfl
  · change ((run env bound { m' with sink := .scratch m'.cursor }).bind _) = _
    rw [hk']
    rfl

end Stencil
