import Stencil.Proofs.Aside
import Stencil.Proofs.Correctness
import Stencil.Proofs.Imports
import Stencil.Proofs.Ledger
/-! What comes of actions whatever else was done in a render. From all states in which a chain of instances stands an
action comes to the same value and writes the same texts, however far its output has come and whatever was compiled. -/

namespace Stencil

open Rendering

variable {α β : Type}

/-! ## Texts that go to a sink -/

namespace Sink

/-- The sink behind a text, which counts for nothing if it is empty or the writer has failed. -/
def put (s : Sink) (text : String) : Sink :=
  if s.failed || text.isEmpty then s else (s.accept? text).getD s.refuse

/-- The sink behind some texts. -/
def puts (s : Sink) (texts : List String) : Sink := texts.foldl put s

theorem puts_append (s : Sink) (texts more : List String) : s.puts (texts ++ more) = (s.puts texts).puts more :=
  List.foldl_append

/-- Where there is room, texts come behind the text that is there. -/
theorem text_puts {s : Sink} (hf : s.failed = false) (hr : s.room = none) (texts : List String) :
    (s.puts texts).text = s.text ++ String.join texts := by
  induction texts generalizing s with
  | nil => exact String.append_empty.symm
  | cons text texts ih =>
    have hput : (s.put text).failed = false ∧ (s.put text).room = none ∧ (s.put text).text = s.text ++ text := by
      rw [put, hf, Bool.false_or]
      split
      · next he => exact ⟨hf, hr, by rw [String.isEmpty_iff.mp he, String.append_empty]⟩
      · rw [accept?, hr]
        refine ⟨hf, rfl, ?_⟩
        rw [Option.getD_some, Sink.text, List.reverse_cons, String.join_append]
        simp [String.join, Sink.text]
    rw [puts, List.foldl_cons]
    refine (ih hput.1 hput.2.1).trans ?_
    rw [hput.2.2, String.append_assoc]
    exact congrArg (s.text ++ ·) (String.join_append (l := [text]) (m := texts)).symm

end Sink

/-! ## What actions do -/

/-- From all states of a kind an action comes to the same value and writes the same texts, and it leaves a state of a
kind. -/
def Rendering.Does (I J : Machine → Prop) (x : Rendering α) (a : α) (texts : List String) : Prop :=
  ∀ m, I m → ∃ k, x m = .done a k ∧ J k ∧ k.sink = m.sink.puts texts

namespace Rendering.Does

variable {run : Env → Instance → Rendering Unit} {I J K : Machine → Prop} {x : Rendering α} {a : α}
  {texts more : List String}

theorem pure (a : α) : Does I I (handle run (pure a)) a [] := fun m hm => ⟨m, rfl, hm, rfl⟩

theorem bind {f : α → Rendering β} {b : β} (h : Does I J (handle run x) a texts)
    (hf : Does J K (handle run (f a)) b more) : Does I K (handle run (x >>= f)) b (texts ++ more) := by
  intro m hm
  obtain ⟨k, hk, hj, hs⟩ := h m hm
  obtain ⟨l, hl, hkeep, ht⟩ := hf k hj
  exact ⟨l, (handle_bind_of_done hk).trans hl, hkeep, by rw [ht, hs, Sink.puts_append]⟩

theorem modify {g : Machine → Machine} (hI : ∀ m, I m → J (g m)) (hs : ∀ m, (g m).sink = m.sink) :
    Does I J (handle run (modify g)) () [] := fun m hm => ⟨g m, rfl, hI m hm, hs m⟩

theorem mono {I' J' : Machine → Prop} (h : Does I J x a texts) (hI : ∀ m, I' m → I m) (hJ : ∀ m, J m → J' m) :
    Does I' J' x a texts := fun m hm => by
  obtain ⟨k, hk, hj, hs⟩ := h m (hI m hm)
  exact ⟨k, hk, hJ k hj, hs⟩

/-- An action has one outcome. -/
theorem unique {b : α} (hm : ∃ m, I m) (h : Does I J x a texts) (h' : Does I K x b more) : a = b := by
  obtain ⟨m, hm⟩ := hm
  obtain ⟨k, hk, -⟩ := h m hm
  obtain ⟨l, hl, -⟩ := h' m hm
  cases hk.symm.trans hl
  rfl

/-- What writes nothing writes no texts. -/
theorem aside (h : Does I J (handle run x) a texts) (hx : Aside x) : Does I J (handle run x) a [] := fun m hm => by
  obtain ⟨k, hk, hj, -⟩ := h m hm
  exact ⟨k, hk, hj, hx run m a k hk⟩

/-- Two actions that write the same texts, whichever states they start from, always write these. -/
theorem uniform {I' J' : Machine → Prop} {x y : Rendering Unit} (hI : ∃ m, I m) (hI' : ∃ m, I' m)
    (h : ∀ m m', I m → I' m' → ∃ texts, Does (fun j => j = { m with sink := j.sink }) J x () texts ∧
      Does (fun j => j = { m' with sink := j.sink }) J' y () texts) :
    ∃ texts, Does I J x () texts ∧ Does I' J' y () texts := by
  obtain ⟨m, hm⟩ := hI
  obtain ⟨m', hm'⟩ := hI'
  obtain ⟨texts, hx, hy⟩ := h m m' hm hm'
  -- from one state, two lots of texts come to the same in every sink
  have hsame {z : Rendering Unit} {K : Machine → Prop} {j : Machine} {more more' : List String}
      (hz : Does (fun i => i = { j with sink := i.sink }) K z () more)
      (hz' : Does (fun i => i = { j with sink := i.sink }) K z () more') (s : Sink) : s.puts more = s.puts more' := by
    obtain ⟨k, hk, -, hs⟩ := hz { j with sink := s } rfl
    obtain ⟨l, hl, -, hs'⟩ := hz' { j with sink := s } rfl
    cases hk.symm.trans hl
    exact hs.symm.trans hs'
  refine ⟨texts, fun j hj => ?_, fun j hj => ?_⟩
  · obtain ⟨more, hmore, hmore'⟩ := h j m' hj hm'
    obtain ⟨k, hk, hkeep, hs⟩ := hmore j rfl
    exact ⟨k, hk, hkeep, hs.trans (hsame hmore' hy _)⟩
  · obtain ⟨more, hmore, hmore'⟩ := h m j hm hj
    obtain ⟨k, hk, hkeep, hs⟩ := hmore' j rfl
    exact ⟨k, hk, hkeep, hs.trans (hsame hmore hx _)⟩

end Rendering.Does

/-! ## States in which a chain stands -/

theorem Frames.default?_change {g : Frame → Frame} (hg : ∀ frame, (g frame).defaults = frame.defaults) (f : Frames)
    (scope other : Nat) (name : String) : (f.change scope g).default? other name = f.default? other name := by
  rw [default?, get?_change]
  split
  · rw [Option.bind_map, default?]
    exact congrArg (Option.bind _) (funext fun frame => congrArg (Dict.find? · name) (hg frame))
  · rfl

theorem Frames.default?_of_face? {f g : Frames} {scope : Nat} (h : g.face? scope = f.face? scope) (name : String) :
    g.default? scope name = f.default? scope name := by
  rw [default?_eq, default?_eq, h]

/-- A chain of instances stands in a state: its frames are there with given defaults, and what was compiled is noted. -/
structure Machine.Stands (ledger : List Note) (f : Frames) (as : List Activation) (m : Machine) : Prop where
  agrees : m.workspace.Agrees ledger
  live : ∀ a ∈ as, a.scope < m.frames.size
  defaults : ∀ a ∈ as, ∀ name, m.frames.default? a.scope name = f.default? a.scope name

namespace Machine.Stands

variable {ledger : List Note} {f g : Frames} {a : Activation} {as : List Activation} {m k : Machine}

/-- Only what a chain sees of a state matters. -/
theorem congr (h : m.Stands ledger f as) (hs : k.workspace.slots = m.workspace.slots)
    (hn : k.frames.size = m.frames.size)
    (hd : ∀ a ∈ as, ∀ name, k.frames.default? a.scope name = m.frames.default? a.scope name) :
    k.Stands ledger f as where
  agrees := h.agrees.of_slots hs
  live a ha := hn ▸ h.live a ha
  defaults a ha name := (hd a ha name).trans (h.defaults a ha name)

theorem report (h : m.Stands ledger f as) (settings : Settings) (env : Env) (kind : Kind)
    (arguments causes : List String) : (m.report settings env kind arguments causes).Stands ledger f as :=
  h.congr rfl rfl fun _ _ _ => rfl

theorem of_still (h : m.Stands ledger f as) (hs : m.still = k.still) : k.Stands ledger f as := by
  obtain ⟨hf, -, -, hw⟩ := Machine.still_eq_iff.mp hs
  refine h.congr (by rw [hw]) ?_ fun a _ name => ?_
  · rw [← Frames.still_size, ← hf, Frames.still_size]
  · rw [← Frames.still_default?, ← hf, Frames.still_default?]

theorem lookup (h : m.Stands ledger f as) (name : String) (wanted : Option Nat) :
    lookupFrom m.frames name wanted as = lookupFrom f name wanted as := by
  have hd := h.defaults
  clear h
  induction as generalizing wanted with
  | nil => rfl
  | cons a as ih =>
    obtain ⟨hhere, houter⟩ := List.forall_mem_cons.mp hd
    simp only [lookupFrom, hhere, ih _ houter]

/-- A chain stands in the states that have its frames. -/
theorem of_frames {w : Workspace} (hw : w.Agrees ledger) (hl : ∀ a ∈ as, a.scope < f.size) (s : Sink) :
    Machine.Stands ledger f as ⟨f, [], s, 0, w⟩ := ⟨hw, hl, fun _ _ _ => rfl⟩

/-! ### Frames of instances -/

variable {caller : Option Env} {bound : Instance}

/-- The frames that are there when an instance is called, and its own, which has no defaults. -/
theorem enter (h : m.Stands ledger f (chain caller)) : (m.enter caller bound).2.Stands ledger
    (m.enter caller bound).2.frames (m.enter caller bound).1.activations where
  agrees := h.agrees
  live := by
    have hn : (m.enter caller bound).2.frames.size = m.frames.size + 1 := m.frames.size_enter _ _
    refine List.forall_mem_cons.mpr ⟨hn ▸ Nat.lt_succ_self _, fun b hb => hn ▸ Nat.lt_succ_of_lt (h.live b hb)⟩
  defaults _ _ _ := rfl

theorem default?_enter (h : m.Stands ledger f (chain caller)) (name : String) :
    (m.enter caller bound).2.frames.default? m.frames.size name = none ∧ ∀ b ∈ chain caller,
      (m.enter caller bound).2.frames.default? b.scope name = f.default? b.scope name := by
  refine ⟨?_, fun b hb => ?_⟩
  · rw [Frames.default?_eq]
    exact congrArg (Option.bind · fun frame => Dict.find? frame.defaults name) (m.frames.face?_enter _ _)
  · exact (Frames.default?_of_face? (m.frames.face?_enter_of_lt _ _ (h.live b hb)) name).trans (h.defaults b hb name)

/-- The frames around an instance that came to its end. -/
theorem leave {env : Env} (h : k.Stands ledger f as) (hlt : ∀ b ∈ as, b.scope < env.scope)
    (hl : env.scope < k.frames.size) (start height : Nat) : (k.leave env start height).Stands ledger f as := by
  have hface (c : Completion) (b : Activation) (hb : b ∈ as) :
      ((k.frames.recordCompletion c).exit env.scope).face? b.scope = k.frames.face? b.scope :=
    (Frames.face?_exit _ (hlt b hb)).trans (k.frames.face?_recordCompletion c _)
  refine ⟨h.agrees, fun b hb => ?_, fun b hb name => ?_⟩
  · have hsize (c : Completion) := Nat.lt_of_lt_of_eq hl (k.frames.size_recordCompletion c).symm
    exact Nat.lt_of_lt_of_le (hlt b hb) (Frames.exit_keeps _ _ (hsize _)).1
  · exact (Frames.default?_of_face? (hface _ b hb) name).trans (h.defaults b hb name)

end Machine.Stands

/-! ## What single steps do -/

/-- An instance that runs: how it renders, in which environment, what becomes of its calls, what is noted of the
workspace, and frames with the defaults of the chain. -/
structure Standpoint where
  settings : Settings
  env : Env
  run : Env → Instance → Rendering Unit
  ledger : List Note
  frames : Frames

namespace Standpoint

/-- A state in which the instance and its callers stand. -/
abbrev Holds (S : Standpoint) : Machine → Prop := Machine.Stands S.ledger S.frames S.env.activations

/-- What an action does here, after which the instances stand as before. -/
abbrev Does (S : Standpoint) (x : Rendering α) (a : α) (texts : List String) : Prop :=
  Rendering.Does S.Holds S.Holds (handle S.run x) a texts

variable (S : Standpoint)

theorem report (kind : Kind) (arguments causes : List String) :
    S.Does (Rendering.report S.settings S.env kind arguments causes) () [] :=
  .modify (fun _ hm => hm.report _ _ _ _ _) fun _ => rfl

theorem writeText (text : String) : S.Does (Rendering.writeText S.settings S.env text) () [text] := by
  intro m hm
  change ∃ k, (Rendering.writeText S.settings S.env text m).handle S.run = .done () k ∧ _ ∧ k.sink = m.sink.put text
  rw [writeText_apply, Sink.put]
  split
  · exact ⟨m, rfl, hm, rfl⟩
  · cases m.sink.accept? text with
    | some sink => exact ⟨_, rfl, hm.congr rfl rfl fun _ _ _ => rfl, rfl⟩
    | none =>
      have hrefused : S.Holds { m with sink := m.sink.refuse } := hm.congr rfl rfl fun _ _ _ => rfl
      exact ⟨_, rfl, hrefused.report _ _ _ _ _, rfl⟩

variable {S} in
/-- What is kept aside is the texts that are written, one behind the other. -/
theorem Does.capture {x : Rendering Unit} {texts : List String} (h : S.Does x () texts) :
    S.Does (Rendering.capture x) (String.join texts) [] := by
  intro m hm
  obtain ⟨k, hk, hj, hs⟩ := h { m with sink := .scratch m.cursor } (hm.congr rfl rfl fun _ _ _ => rfl)
  have htext : k.sink.text = String.join texts := by
    rw [hs, Sink.text_puts rfl rfl]
    exact String.empty_append
  refine ⟨{ k with sink := m.sink, cursor := m.cursor }, ?_, hj.congr rfl rfl fun _ _ _ => rfl, rfl⟩
  have hback := congrArg (Course.bind fun _ k => .done k.sink.text { k with sink := m.sink, cursor := m.cursor }) hk
  exact (Course.handle_bind S.run (x _) _).trans (hback.trans (congrArg (Course.done · _) htext))

theorem readAttribute (name : String) : S.Does (Rendering.readAttribute S.env name)
    ((lookupFrom S.frames name none S.env.activations).getD .null) [] := by
  intro m hm
  rw [← hm.lookup]
  exact ⟨m, rfl, hm, rfl⟩

/-- Frames in which early frames are marked, or in which something is recorded, have the same defaults. -/
theorem changeFrames {g : Frames → Frames} (hn : ∀ f, (g f).size = f.size)
    (hd : ∀ f scope name, (g f).default? scope name = f.default? scope name) :
    S.Does (Rendering.changeFrames g) () [] :=
  .modify (fun m hm => hm.congr rfl (hn m.frames) fun _ _ name => hd m.frames _ name) fun _ => rfl

theorem setEarly (early : Bool) : S.Does (Rendering.changeFrames fun f => f.setEarly S.env.scope early) () [] :=
  S.changeFrames (fun f => f.size_change _ _) fun f =>
    Frames.default?_change (g := fun frame => { frame with early }) (fun _ => rfl) f _

variable {S} in
theorem Does.renderEarly {v : Value} {text : String} {texts : List String}
    (h : S.Does (renderText S.settings S.env v) text texts) :
    S.Does (Rendering.renderEarly S.settings S.env v) text texts := by
  intro m hm
  have hx : S.Does (do
      Rendering.changeFrames fun f => f.setEarly S.env.scope true
      let text ← renderText S.settings S.env v
      Rendering.changeFrames fun f => f.setEarly S.env.scope (m.frames.isEarly S.env.scope)
      return text) text ([] ++ (texts ++ ([] ++ []))) :=
    .bind (S.setEarly true) (.bind h (.bind (S.setEarly _) (.pure text)))
  rw [List.append_nil, List.append_nil] at hx
  exact hx m hm

variable {S} in
theorem Does.writeExpression {options : WriteOptions} {v : Value} {texts : List String}
    (h : S.Does (writeValue S.settings S.env options v) () texts) :
    S.Does (Rendering.writeExpression S.settings S.env options v) () texts := by
  intro m hm
  obtain ⟨k, hk, hj, hs⟩ := h m hm
  have hrecord : S.Does (Rendering.changeFrames fun f => if f.isEarly S.env.scope then f
      else f.recordWriting ⟨S.env.scope, ⟨m.sink.position, k.sink.position⟩, S.env.place⟩) () [] := by
    refine S.changeFrames (fun f => ?_) fun f scope name => ?_
    · split
      · rfl
      · exact f.size_recordWriting _
    · split
      · rfl
      · exact Frames.default?_of_face? (f.face?_recordWriting _ _) name
  obtain ⟨l, hl, hkeep, hs'⟩ := hrecord k hj
  have hstart : handle S.run position m = .done m.sink.position m := rfl
  have hstop : handle S.run position k = .done k.sink.position k := rfl
  refine ⟨l, (handle_bind_of_done hstart).trans ?_, hkeep, hs'.trans hs⟩
  exact (handle_bind_of_done hk).trans ((handle_bind_of_done hstop).trans hl)

theorem inWorkspace_of_run {action : StateM Workspace α} {a : α} {m : Machine} {w : Workspace}
    (h : action.run m.workspace = (a, w)) : inWorkspace action m = .done a { m with workspace := w } := by
  have hm : inWorkspace action m =
      .done (action.run m.workspace).1 { m with workspace := (action.run m.workspace).2 } := rfl
  rw [hm, h]

/-- What is found for a callee. -/
def found (callee : Callee) : Option (Group × Definition) :=
  if callee.inherited then S.env.here.bound.native.findInherited? callee.name else S.settings.group.find? callee.name

section

variable {S} {callee : Callee} (hroot : ∀ g ∈ S.settings.group.tree, g.Recorded S.ledger)
  (hnative : ∀ g ∈ S.env.here.bound.native.tree, g.Recorded S.ledger)
include hroot hnative

/-- What is found is noted if what the groups define is. -/
theorem recorded_found {native : Group} {d : Definition} (h : S.found callee = some (native, d)) :
    (∀ g ∈ native.tree, g.Recorded S.ledger) ∧ (callee.name, d) ∈ native.templates := by
  rw [found] at h
  split at h
  · obtain ⟨hn, hd⟩ := Group.mem_of_findIn? _ h
    have htree := Group.treeIn_subset _ hn
    rw [Group.tree_eq] at hnative
    exact ⟨fun g hg => hnative g (List.mem_cons_of_mem _ (htree hg)), Dict.mem_of_find? hd⟩
  · obtain ⟨hn, hd⟩ := Group.mem_of_find? _ h
    exact ⟨fun g hg => hroot g (Group.tree_subset _ hn hg), Dict.mem_of_find? hd⟩

/-- Looking up a template finds what is found in groups, compiled on the spot. -/
theorem resolve : S.Does (Rendering.resolve S.settings S.env callee)
    (Group.freshly callee.name (S.found callee)) [] := by
  intro m hm
  have hnoted native d (hf : S.found callee = some (native, d)) :=
    (recorded_found hroot hnative hf).imp_left fun h => h native native.mem_tree
  obtain ⟨w, hrun, hw⟩ := hm.agrees.resolveFound callee.name _ hnoted
  rw [resolve_eq]
  exact ⟨{ m with workspace := w }, congrArg (Course.handle S.run) (inWorkspace_of_run hrun),
    ⟨hw, hm.live, hm.defaults⟩, rfl⟩

end

end Standpoint

end Stencil
