import Mathlib.Logic.Relation
import Stencil.Proofs.Framing
import Stencil.Proofs.Paths
/-! What is recorded of a render. Each event is kept in its frame and in the log, and completions also in
the frame of the caller, and all of them agree. -/

namespace Stencil

/-- The frame that an event is of. -/
def Event.scope : Event → Nat
  | .wrote w => w.scope
  | .completed c => c.scope

/-- An expression that was written. -/
def Event.IsWriting (e : Event) : Prop := ∃ w, e = .wrote w

/-- The completions among events. -/
def completionsOf (es : List Event) : List Completion :=
  es.filterMap fun
    | .completed c => some c
    | .wrote _ => none

theorem completionsOf_append (es es' : List Event) :
    completionsOf (es ++ es') = completionsOf es ++ completionsOf es' := List.filterMap_append

theorem mem_completionsOf {es : List Event} {c : Completion} : c ∈ completionsOf es ↔ .completed c ∈ es := by
  rw [completionsOf, List.mem_filterMap]
  constructor
  · rintro ⟨e, he, hc⟩
    cases e with
    | wrote w => cases hc
    | completed c' =>
      cases hc
      exact he
  · exact fun h => ⟨_, h, rfl⟩

/-- A frame is given more events and completions, and otherwise only changes in what is not recorded. -/
structure Frame.Gains (x x' : Frame) (events : List Event) (children : List Completion) : Prop where
  parent : x'.parent = x.parent
  template : x'.template = x.template
  depth : x'.depth = x.depth
  events : x'.events.toList = x.events.toList ++ events
  children : x'.children.toList = x.children.toList ++ children

theorem Frame.Gains.nothing {x x' : Frame} (hp : x'.parent = x.parent) (ht : x'.template = x.template)
    (hd : x'.depth = x.depth) (he : x'.events = x.events) (hc : x'.children = x.children) : x.Gains x' [] [] :=
  ⟨hp, ht, hd, by rw [he, List.append_nil], by rw [hc, List.append_nil]⟩

namespace Frames

/-- The frame that a frame was called from. -/
def parent? (f : Frames) (scope : Nat) : Option Nat := (f.get? scope).bind Frame.parent

/-- One frame lies above another. -/
def Above (f : Frames) : Nat → Nat → Prop := Relation.TransGen fun x y => f.parent? y = some x

/-- In the log, a frame was completed before an event. -/
def CompletedBefore (f : Frames) (scope : Nat) (e : Event) : Prop :=
  ∃ c : Completion, c.scope = scope ∧ [.completed c, e].Sublist f.log.toList

/-- The frames hold what the log says, and each lies below one with a smaller number, or is the first. -/
structure Books (f : Frames) : Prop where
  retained : f.retained = true
  rooted : ∀ scope frame, f.get? scope = some frame → frame.parent = none → scope = 0 ∧ frame.depth = 0
  below : ∀ scope frame p, f.get? scope = some frame → frame.parent = some p →
    p < scope ∧ ∃ above, f.get? p = some above ∧ frame.depth = above.depth + 1
  scopes : ∀ e ∈ f.log.toList, e.scope < f.size
  events : ∀ scope frame, f.get? scope = some frame → frame.events.toList = f.log.toList.filter (·.scope = scope)
  children : ∀ scope frame, f.get? scope = some frame →
    frame.children.toList = f.completions.filter (f.parent? ·.scope = some scope)

/-- Some frames are live, which have not been completed. All others were, after all that they called and
before anything happened in a later frame that is not below them. -/
structure Live (f : Frames) (live : List Nat) : Prop where
  running : ∀ e ∈ f.log.toList, e.scope ∈ live → e.IsWriting
  ended : ∀ scope frame, f.get? scope = some frame → scope ∉ live → ∃ events c,
    f.log.toList.filter (·.scope = scope) = events ++ [.completed c] ∧ (∀ e ∈ events, e.IsWriting) ∧
      c.template = frame.template ∧ c.early = f.isEarly scope
  returned : ∀ scope p, f.parent? scope = some p → p ∉ live →
    ∃ c : Completion, c.scope = p ∧ f.CompletedBefore scope (.completed c)
  entered : ∀ x y, x < y → y < f.size →
    f.Above x y ∨ x ∉ live ∧ ∀ e ∈ f.log.toList, e.scope = y → f.CompletedBefore x e
  last : live = [] → f.size ≠ 0 → ∃ c, f.log.toList.getLast? = some (.completed c) ∧ c.scope = 0

/-! ## Steps -/

/-- More events are recorded. -/
structure Grows (f f' : Frames) (new : List Event) : Prop where
  retained : f'.retained = f.retained
  log : f'.log.toList = f.log.toList ++ new
  size : f'.size = f.size
  frame : ∀ scope x', f'.get? scope = some x' → ∃ x, f.get? scope = some x ∧
    x.Gains x' (new.filter (·.scope = scope)) ((completionsOf new).filter (f.parent? ·.scope = some scope))

theorem parent?_eq {f : Frames} {scope : Nat} {frame : Frame} (h : f.get? scope = some frame) :
    f.parent? scope = frame.parent := by
  rw [parent?, h]
  rfl

theorem lt_size_of_parent? {f : Frames} {scope p : Nat} (h : f.parent? scope = some p) : scope < f.size := by
  obtain ⟨_, hframe, -⟩ := Option.bind_eq_some_iff.mp h
  exact lt_size_of_get? hframe

namespace Grows

variable {f f' : Frames} {new : List Event} {live : List Nat} (h : f.Grows f' new)
include h

theorem parent? : f'.parent? = f.parent? := by
  funext scope
  rcases Nat.lt_or_ge scope f.size with hs | hs
  · obtain ⟨x', hx'⟩ := get?_of_lt (h.size ▸ hs)
    obtain ⟨x, hx, hg⟩ := h.frame scope x' hx'
    rw [parent?_eq hx', parent?_eq hx, hg.parent]
  · rw [Frames.parent?, Frames.parent?, get?_eq_none hs, get?_eq_none (h.size ▸ hs)]

theorem completedBefore {scope : Nat} {e : Event} (he : f.CompletedBefore scope e) : f'.CompletedBefore scope e := by
  obtain ⟨c, hc, hs⟩ := he
  exact ⟨c, hc, h.log ▸ hs.trans (List.sublist_append_left _ _)⟩

theorem completions : f'.completions = f.completions ++ completionsOf new := by
  change completionsOf _ = completionsOf _ ++ _
  rw [h.log, completionsOf_append]

/-- What is recorded goes on to agree. -/
theorem books (hb : f.Books) (hnew : ∀ e ∈ new, e.scope < f.size) : f'.Books where
  retained := h.retained.trans hb.retained
  rooted scope x' hx' hp := by
    obtain ⟨x, hx, hg⟩ := h.frame scope x' hx'
    rw [hg.depth]
    exact hb.rooted scope x hx (hg.parent ▸ hp)
  below scope x' p hx' hp := by
    obtain ⟨x, hx, hg⟩ := h.frame scope x' hx'
    obtain ⟨hlt, y, hy, hdepth⟩ := hb.below scope x p hx (hg.parent ▸ hp)
    obtain ⟨y', hy'⟩ := get?_of_lt (h.size ▸ lt_size_of_get? hy)
    obtain ⟨z, hz, hgy⟩ := h.frame p y' hy'
    cases hy.symm.trans hz
    exact ⟨hlt, y', hy', by rw [hg.depth, hgy.depth, hdepth]⟩
  scopes e he := by
    rw [h.log] at he
    rw [h.size]
    rcases List.mem_append.mp he with he | he
    · exact hb.scopes e he
    · exact hnew e he
  events scope x' hx' := by
    obtain ⟨x, hx, hg⟩ := h.frame scope x' hx'
    rw [hg.events, hb.events scope x hx, h.log, List.filter_append]
  children scope x' hx' := by
    obtain ⟨x, hx, hg⟩ := h.frame scope x' hx'
    rw [hg.children, hb.children scope x hx, h.completions, h.parent?, List.filter_append]

theorem before_new (hl : f.Live live) {x : Nat} (hx : x < f.size) (hlive : x ∉ live) {e : Event}
    (he : e ∈ new) : f'.CompletedBefore x e := by
  obtain ⟨frame, hframe⟩ := get?_of_lt hx
  obtain ⟨events, c, hlog, -⟩ := hl.ended x frame hframe hlive
  have hc : .completed c ∈ f.log.toList.filter (·.scope = x) := hlog ▸ List.mem_append_right _ List.mem_cons_self
  obtain ⟨hc, hscope⟩ := List.mem_filter.mp hc
  refine ⟨c, of_decide_eq_true hscope, h.log ▸ ?_⟩
  exact (List.singleton_sublist.mpr hc).append (List.singleton_sublist.mpr he)

theorem above : f'.Above = f.Above := by
  unfold Above
  rw [h.parent?]

/-- Frames stay in the order that they were entered in. -/
theorem entered (hl : f.Live live) (x y : Nat) (hxy : x < y) (hy : y < f'.size) :
    f'.Above x y ∨ x ∉ live ∧ ∀ e ∈ f'.log.toList, e.scope = y → f'.CompletedBefore x e := by
  rw [h.size] at hy
  rw [h.above]
  refine (hl.entered x y hxy hy).imp_right fun ⟨hx, hbefore⟩ => ⟨hx, fun e he hscope => ?_⟩
  rw [h.log] at he
  rcases List.mem_append.mp he with he | he
  · exact h.completedBefore (hbefore e he hscope)
  · exact h.before_new hl (Nat.lt_trans hxy hy) hx he

theorem write (hl : f.Live live) (hwritings : ∀ e ∈ new, e.IsWriting) (hnew : ∀ e ∈ new, e.scope ∈ live)
    (hearly : ∀ scope, scope ∉ live → f'.isEarly scope = f.isEarly scope) (hne : live ≠ []) : f'.Live live where
  running e he hs := by
    rw [h.log] at he
    rcases List.mem_append.mp he with he | he
    · exact hl.running e he hs
    · exact hwritings e he
  ended scope x' hx' hs := by
    obtain ⟨x, hx, hg⟩ := h.frame scope x' hx'
    have hnone : new.filter (·.scope = scope) = [] := by
      simp only [List.filter_eq_nil_iff, decide_eq_true_eq]
      exact fun e he hscope => hs (hscope ▸ hnew e he)
    rw [h.log, List.filter_append, hnone, List.append_nil, hg.template, hearly scope hs]
    exact hl.ended scope x hx hs
  returned scope p hp hs := by
    obtain ⟨c, hc, hbefore⟩ := hl.returned scope p (h.parent? ▸ hp) hs
    exact ⟨c, hc, h.completedBefore hbefore⟩
  entered := h.entered hl
  last hnil := absurd hnil hne

omit h in
/-- The innermost live frame is completed. -/
theorem complete {s : Nat} {c : Completion} (hb : f.Books) (hl : f.Live (s :: live))
    (h : f.Grows f' [.completed c]) (hc : c.scope = s) (hlt : ∀ p ∈ live, p < s)
    (htemplate : ∀ frame, f.get? s = some frame → frame.template = c.template)
    (hearly : ∀ scope, f'.isEarly scope = f.isEarly scope) (hce : c.early = f.isEarly s)
    (hroot : live = [] → f.parent? s = none) (hs : s < f.size) : f'.Live live where
  running e he hscope := by
    rw [h.log] at he
    rcases List.mem_append.mp he with he | he
    · exact hl.running e he (List.mem_cons_of_mem _ hscope)
    · cases List.mem_singleton.mp he
      exact absurd (hlt _ (hc ▸ hscope)) (Nat.lt_irrefl _)
  ended scope x' hx' hscope := by
    obtain ⟨x, hx, hg⟩ := h.frame scope x' hx'
    rw [h.log, List.filter_append, hg.template, hearly]
    by_cases he : scope = s
    · subst he
      refine ⟨f.log.toList.filter (·.scope = scope), c, ?_, fun e he => ?_, (htemplate x hx).symm, hce⟩
      · simp [Event.scope, hc]
      · obtain ⟨he, hes⟩ := List.mem_filter.mp he
        exact hl.running e he (of_decide_eq_true hes ▸ List.mem_cons_self)
    · obtain ⟨events, c', hlog, hrest⟩ := hl.ended scope x hx (List.not_mem_cons_of_ne_of_not_mem he hscope)
      refine ⟨events, c', ?_, hrest⟩
      have hne : ¬(Event.completed c).scope = scope := fun hn => he (hn.symm.trans hc)
      rw [List.filter_cons_of_neg (by simpa using hne), List.filter_nil, List.append_nil, hlog]
  returned scope p hp hscope := by
    rw [h.parent?] at hp
    by_cases he : p = s
    · subst he
      -- a frame below the innermost one lies behind all live ones
      obtain ⟨frame, hframe, hparent⟩ := Option.bind_eq_some_iff.mp hp
      have hbelow := (hb.below scope frame p hframe hparent).1
      refine ⟨c, hc, h.before_new hl (lt_size_of_get? hframe) (fun hm => ?_) List.mem_cons_self⟩
      rcases List.mem_cons.mp hm with rfl | hm
      · exact Nat.lt_irrefl _ hbelow
      · exact Nat.lt_asymm hbelow (hlt scope hm)
    · obtain ⟨c', hc', hbefore⟩ := hl.returned scope p hp (List.not_mem_cons_of_ne_of_not_mem he hscope)
      exact ⟨c', hc', h.completedBefore hbefore⟩
  entered x y hxy hy := (h.entered hl x y hxy hy).imp_right
    fun ⟨hx, hbefore⟩ => ⟨fun hm => hx (List.mem_cons_of_mem _ hm), hbefore⟩
  last hnil _ := by
    refine ⟨c, by rw [h.log, List.getLast?_concat], ?_⟩
    obtain ⟨frame, hframe⟩ := get?_of_lt hs
    have hp := hroot hnil
    rw [parent?_eq hframe] at hp
    exact hc.trans (hb.rooted s frame hframe hp).1

end Grows

/-! ## What instances do -/

variable {f : Frames} {live : List Nat}

theorem get?_change_inv {scope other : Nat} {g : Frame → Frame} {x' : Frame}
    (h : (f.change scope g).get? other = some x') :
    ∃ x, f.get? other = some x ∧ x' = if scope = other then g x else x := by
  rw [get?_change] at h
  split at h
  · obtain ⟨x, hx, rfl⟩ := Option.map_eq_some_iff.mp h
    exact ⟨x, hx, by rw [if_pos ‹_›]⟩
  · exact ⟨x', h, by rw [if_neg ‹_›]⟩

theorem Grows.change {g : Frame → Frame} (hg : ∀ x : Frame, x.Gains (g x) [] []) (scope : Nat) :
    f.Grows (f.change scope g) [] where
  retained := rfl
  log := (List.append_nil _).symm
  size := f.size_change _ _
  frame other x' hx' := by
    obtain ⟨x, hx, rfl⟩ := get?_change_inv hx'
    refine ⟨x, hx, ?_⟩
    split
    · exact hg x
    · exact .nothing rfl rfl rfl rfl rfl

theorem Grows.record (w : Writing) : f.Grows (f.record w.scope (.wrote w)) [.wrote w] where
  retained := rfl
  log := Array.toList_push
  size := f.size_change _ _
  frame other x' hx' := by
    obtain ⟨x, hx, rfl⟩ := get?_change_inv (f := f) hx'
    refine ⟨x, hx, ?_⟩
    split
    · rename_i he
      exact ⟨rfl, rfl, rfl, by simp [Event.scope, he], by simp [completionsOf]⟩
    · rename_i hne
      exact ⟨rfl, rfl, rfl, by simp [Event.scope, hne], by simp [completionsOf]⟩

theorem recordCompletion_eq (hr : f.retained = true) (c : Completion) : f.recordCompletion c =
    match f.parent? c.scope with
    | some p => (f.record c.scope (.completed c)).change p fun x => { x with children := x.children.push c }
    | none => f.record c.scope (.completed c) := by
  rw [recordCompletion, if_pos hr]
  rfl

theorem Grows.recordCompletion (hr : f.retained = true) (c : Completion)
    (hp : f.parent? c.scope ≠ some c.scope) : f.Grows (f.recordCompletion c) [.completed c] where
  retained := f.retained_recordCompletion c
  log := by
    rw [recordCompletion_eq hr]
    split <;> exact Array.toList_push
  size := f.size_recordCompletion c
  frame other x' hx' := by
    rw [recordCompletion_eq hr] at hx'
    cases hparent : f.parent? c.scope with
    | none =>
      rw [hparent] at hx'
      obtain ⟨x, hx, rfl⟩ := get?_change_inv (f := f) hx'
      refine ⟨x, hx, ?_⟩
      split
      · rename_i he
        exact ⟨rfl, rfl, rfl, by simp [Event.scope, he], by simp [completionsOf, hparent]⟩
      · rename_i hne
        exact ⟨rfl, rfl, rfl, by simp [Event.scope, hne], by simp [completionsOf, hparent]⟩
    | some p =>
      rw [hparent] at hx' hp
      have hne : p ≠ c.scope := fun he => hp (congrArg some he)
      obtain ⟨y, hy, rfl⟩ := get?_change_inv hx'
      obtain ⟨x, hx, rfl⟩ := get?_change_inv (f := f) hy
      refine ⟨x, hx, ?_⟩
      by_cases he : c.scope = other
      · subst he
        exact ⟨by simp [hne], by simp [hne], by simp [hne], by simp [Event.scope, hne],
          by simp [completionsOf, hparent, hne]⟩
      · by_cases hp : p = other
        · subst hp
          exact ⟨by simp [he], by simp [he], by simp [he], by simp [Event.scope, he],
            by simp [completionsOf, hparent, he]⟩
        · exact ⟨by simp [he, hp], by simp [he, hp], by simp [he, hp], by simp [Event.scope, he, hp],
            by simp [completionsOf, hparent, he, hp]⟩

theorem isEarly_change {scope other : Nat} (h : scope ≠ other) (g : Frame → Frame) :
    (f.change scope g).isEarly other = f.isEarly other := by
  rw [isEarly_eq, isEarly_eq, face?_change_of_ne f h]

/-! ## Opening frames -/

section

variable {parent : Option Nat} {template : String}

theorem parent?_enter (f : Frames) (parent : Option Nat) (template : String) (scope : Nat) :
    (f.enter parent template).2.parent? scope = if scope = f.size then parent else f.parent? scope := by
  rw [parent?, get?_enter]
  split <;> rfl

theorem Books.enter (h : f.Books) (hparent : ∀ p, parent = some p → p < f.size) (hroot : parent = none → f.size = 0) :
    (f.enter parent template).2.Books where
  retained := h.retained
  rooted scope x hx hp := by
    rw [get?_enter] at hx
    split at hx
    · cases hx
      cases hp
      exact ⟨‹scope = _›.trans (hroot rfl), rfl⟩
    · exact h.rooted scope x hx hp
  below scope x p hx hp := by
    rw [get?_enter] at hx
    split at hx
    · cases hx
      cases hp
      have hlt := hparent p rfl
      obtain ⟨above, habove⟩ := get?_of_lt hlt
      refine ⟨‹scope = _› ▸ hlt, above, ?_, ?_⟩
      · rw [get?_enter, if_neg (Nat.ne_of_lt hlt), habove]
      · rw [Option.bind_some, habove]
        rfl
    · obtain ⟨hlt, above, habove, hdepth⟩ := h.below scope x p hx hp
      refine ⟨hlt, above, ?_, hdepth⟩
      rw [get?_enter, if_neg (Nat.ne_of_lt (lt_size_of_get? habove)), habove]
  scopes e he := by
    rw [size_enter]
    exact Nat.lt_succ_of_lt (h.scopes e he)
  events scope x hx := by
    rw [get?_enter] at hx
    split at hx
    · cases hx
      refine (List.filter_eq_nil_iff.mpr fun e he => ?_).symm
      have hlt := h.scopes e he
      simp
      omega
    · exact h.events scope x hx
  children scope x hx := by
    have hcompletions : (f.enter parent template).2.completions = f.completions := rfl
    have hold {c : Completion} (hc : c ∈ f.completions) :
        (f.enter parent template).2.parent? c.scope = f.parent? c.scope := by
      have hlt : c.scope < f.size := h.scopes _ (mem_completionsOf.mp hc)
      rw [parent?_enter, if_neg (Nat.ne_of_lt hlt)]
    rw [hcompletions, List.filter_congr fun c hc => congrArg (fun p => decide (p = some scope)) (hold hc)]
    rw [get?_enter] at hx
    split at hx
    · cases hx
      subst ‹scope = _›
      refine (List.filter_eq_nil_iff.mpr fun c _ hc => ?_).symm
      obtain ⟨y, hy, hp⟩ := Option.bind_eq_some_iff.mp (of_decide_eq_true hc)
      exact Nat.lt_asymm (h.below _ y _ hy hp).1 (lt_size_of_get? hy)
    · exact h.children scope x hx

theorem Live.enter (h : f.Live live) (hb : f.Books) (hparent : ∀ p, parent = some p → p ∈ live)
    (habove : ∀ x ∈ live, ∃ p, parent = some p ∧ (x = p ∨ f.Above x p)) :
    (f.enter parent template).2.Live (f.size :: live) where
  running e he hs := by
    rcases List.mem_cons.mp hs with hs | hs
    · exact absurd hs (Nat.ne_of_lt (hb.scopes e he))
    · exact h.running e he hs
  ended scope x hx hs := by
    have hne : scope ≠ f.size := fun he => hs (he ▸ List.mem_cons_self)
    rw [get?_enter, if_neg hne] at hx
    have hearly : (f.enter parent template).2.isEarly scope = f.isEarly scope := by
      rw [isEarly, get?_enter, if_neg hne, isEarly]
    rw [hearly]
    exact h.ended scope x hx fun hm => hs (List.mem_cons_of_mem _ hm)
  returned scope p hp hs := by
    rw [parent?_enter] at hp
    split at hp
    · exact absurd (List.mem_cons_of_mem _ (hparent p hp)) hs
    · exact h.returned scope p hp fun hm => hs (List.mem_cons_of_mem _ hm)
  entered x y hxy hy := by
    have habove' {a b : Nat} (hab : f.Above a b) : (f.enter parent template).2.Above a b := by
      refine Relation.TransGen.mono (fun a b hp => ?_) a b hab
      rw [parent?_enter, if_neg (Nat.ne_of_lt (lt_size_of_parent? hp)), hp]
    rw [size_enter] at hy
    rcases Nat.lt_succ_iff_lt_or_eq.mp hy with hy | rfl
    · refine (h.entered x y hxy hy).imp habove' fun hnew => ⟨fun hm => ?_, hnew.2⟩
      rcases List.mem_cons.mp hm with rfl | hm
      · exact Nat.lt_asymm hxy hy
      · exact hnew.1 hm
    · by_cases hx : x ∈ live
      · obtain ⟨p, rfl, hp⟩ := habove x hx
        have hlast : (f.enter (some p) template).2.parent? f.size = some p := by rw [parent?_enter, if_pos rfl]
        rcases hp with rfl | hp
        · exact .inl (.single hlast)
        · exact .inl ((habove' hp).tail hlast)
      · refine .inr ⟨fun hm => ?_, fun e he hs => absurd hs (Nat.ne_of_lt (hb.scopes e he))⟩
        rcases List.mem_cons.mp hm with rfl | hm
        · exact Nat.lt_irrefl _ hxy
        · exact hx hm
  last hnil := nomatch hnil

end

/-! ## Chains -/

variable {a : Activation} {as : List Activation}

theorem Chain.parent? (h : f.Chain (a :: as)) : f.parent? a.scope = as.head?.map Activation.scope := by
  cases h with
  | cons face of _ =>
    obtain ⟨x, hx, rfl⟩ := Option.map_eq_some_iff.mp face
    exact (parent?_eq hx).trans of.parent

theorem Chain.above (h : f.Chain (a :: as)) : ∀ b ∈ as, f.Above b.scope a.scope := by
  induction as generalizing a with
  | nil => exact nofun
  | cons b as ih =>
    have hhead : f.Above b.scope a.scope := .single h.parent?
    cases h with
    | cons _ _ outer => exact List.forall_mem_cons.mpr ⟨hhead, fun c hc => (ih outer c hc).trans hhead⟩

/-- What is recorded agrees while a chain of activations is live. -/
structure Recorded (f : Frames) (as : List Activation) : Prop where
  books : f.Books
  live : f.Live (as.map Activation.scope)

theorem Recorded.grow {f' : Frames} {new : List Event} (h : f.Recorded (a :: as)) (hg : f.Grows f' new)
    (hlive : a.scope < f.size) (hwritings : ∀ e ∈ new, e.IsWriting) (hnew : ∀ e ∈ new, e.scope = a.scope)
    (hearly : ∀ scope, a.scope ≠ scope → f'.isEarly scope = f.isEarly scope) : f'.Recorded (a :: as) where
  books := hg.books h.books fun e he => hnew e he ▸ hlive
  live := hg.write h.live hwritings (fun e he => hnew e he ▸ List.mem_cons_self)
    (fun scope hs => hearly scope fun he => hs (he ▸ List.mem_cons_self)) nofun

theorem Recorded.change (h : f.Recorded (a :: as)) (hc : f.Chain (a :: as)) {g : Frame → Frame}
    (hg : ∀ x : Frame, x.Gains (g x) [] []) : (f.change a.scope g).Recorded (a :: as) :=
  h.grow (.change hg _) (hc.lt_size a List.mem_cons_self) (List.forall_mem_nil _) (List.forall_mem_nil _)
    fun _ hs => isEarly_change hs _

theorem Recorded.enter (h : f.Recorded as) (hc : f.Chain as) (hroot : as = [] → f.size = 0) (bound : Instance) :
    (f.enter (as.head?.map Activation.scope) bound.name).2.Recorded (⟨bound, f.size⟩ :: as) := by
  have hlt := hc.lt_size
  constructor
  · refine h.books.enter (fun p hp => ?_) fun hp => hroot ?_
    · obtain ⟨a, ha, rfl⟩ := Option.map_eq_some_iff.mp hp
      exact hlt a (List.mem_of_head? ha)
    · exact List.head?_eq_none_iff.mp (Option.map_eq_none_iff.mp hp)
  · refine h.live.enter h.books (fun p hp => ?_) fun x hx => ?_
    · obtain ⟨a, ha, rfl⟩ := Option.map_eq_some_iff.mp hp
      exact List.mem_map_of_mem (List.mem_of_head? ha)
    · cases hc with
      | nil => cases hx
      | @cons a as frame face of outer =>
        refine ⟨a.scope, rfl, ?_⟩
        rcases List.mem_cons.mp hx with rfl | hx
        · exact .inl rfl
        · obtain ⟨b, hb, rfl⟩ := List.mem_map.mp hx
          exact .inr (Chain.above (.cons face of outer) b hb)

theorem Recorded.leave (h : f.Recorded (a :: as)) (hc : f.Chain (a :: as))
    (hordered : (a :: as).Pairwise fun a b => b.scope < a.scope) (output : Extent) :
    ((f.recordCompletion ⟨a.scope, a.bound.name, output, f.isEarly a.scope⟩).exit a.scope).Recorded as := by
  obtain ⟨hlt, -⟩ := List.pairwise_cons.mp hordered
  have hsize := hc.lt_size a List.mem_cons_self
  have hparent : f.parent? a.scope ≠ some a.scope := fun hp => by
    obtain ⟨x, hx, hp⟩ := Option.bind_eq_some_iff.mp hp
    exact Nat.lt_irrefl _ (h.books.below _ x _ hx hp).1
  have hg := Grows.recordCompletion h.books.retained ⟨a.scope, a.bound.name, output, f.isEarly a.scope⟩ hparent
  rw [exit_retained _ (hg.retained.trans h.books.retained)]
  constructor
  · exact hg.books h.books (List.forall_mem_singleton.mpr hsize)
  · refine hg.complete h.books h.live rfl (fun p hp => ?_) (fun x hx => ?_) (fun scope => ?_) rfl (fun hnil => ?_) hsize
    · obtain ⟨b, hb, rfl⟩ := List.mem_map.mp hp
      exact hlt b hb
    · cases hc with
      | cons face of _ =>
        obtain ⟨y, hy, rfl⟩ := Option.map_eq_some_iff.mp face
        cases hx.symm.trans hy
        exact of.template
    · rw [isEarly_eq, face?_recordCompletion, ← isEarly_eq]
    · rw [hc.parent?, List.map_eq_nil_iff.mp hnil]
      rfl

theorem recorded_invariant : Invariant fun as f => f.Recorded as where
  setNext _ _ _ _ hc h := h.change hc fun _ => .nothing rfl rfl rfl rfl rfl
  setEarly _ _ _ _ hc h := h.change hc fun _ => .nothing rfl rfl rfl rfl rfl
  storeDefault _ _ _ _ _ hc h := h.change hc fun _ => .nothing rfl rfl rfl rfl rfl
  recordWriting f a as output source hc h := by
    rw [recordWriting, if_pos h.books.retained]
    refine h.grow (.record ⟨a.scope, output, source⟩) (hc.lt_size a List.mem_cons_self) ?_ ?_
      fun _ hs => isEarly_change (f := f) hs _
    · exact List.forall_mem_singleton.mpr ⟨_, rfl⟩
    · exact List.forall_mem_singleton.mpr rfl
  enter _ _ bound hc hroot h := h.enter hc hroot bound
  leave _ _ _ output hc hordered h := h.leave hc hordered output

theorem recorded_empty : (empty true).Recorded [] where
  books := ⟨rfl, nofun, nofun, nofun, nofun, nofun⟩
  live := ⟨nofun, nofun, nofun, nofun, fun _ hs => absurd rfl hs⟩

/-! ## Views -/

/-- The three views of what is recorded agree. -/
structure Agree (f : Frames) : Prop where
  /-- There is a frame, and only the first one has no caller. -/
  root : ∃ frame, f.get? 0 = some frame ∧ frame.parent = none ∧ frame.depth = 0
  /-- All others lie one deeper than their caller, which has a smaller number. -/
  below : ∀ scope frame, f.get? scope = some frame → scope ≠ 0 → ∃ p above, frame.parent = some p ∧ p < scope ∧
    f.get? p = some above ∧ frame.depth = above.depth + 1
  /-- Numbers are given in the order of entry: a frame of a smaller number is further out, or was completed
  before anything happened in one of a greater number. -/
  entered : ∀ x y, x < y → y < f.size →
    f.Above x y ∨ ∀ e ∈ f.log.toList, e.scope = y → f.CompletedBefore x e
  scopes : ∀ e ∈ f.log.toList, e.scope < f.size
  events : ∀ scope frame, f.get? scope = some frame → frame.events.toList = f.log.toList.filter (·.scope = scope)
  completion : ∀ scope frame, f.get? scope = some frame → ∃ events c,
    frame.events.toList = events ++ [.completed c] ∧ (∀ e ∈ events, e.IsWriting) ∧
      c.template = frame.template ∧ c.early = frame.early
  children : ∀ scope frame, f.get? scope = some frame →
    frame.children.toList = f.completions.filter (f.parent? ·.scope = some scope)
  returned : ∀ scope frame p, f.get? scope = some frame → frame.parent = some p →
    ∃ c : Completion, c.scope = p ∧ f.CompletedBefore scope (.completed c)
  last : ∃ c, f.log.toList.getLast? = some (.completed c) ∧ c.scope = 0
  path : ∀ scope frame, f.get? scope = some frame →
    f.callPath scope = (frame.parent.map f.callPath).getD [] ++ [frame.template] ∧
      (f.callPath scope).length = frame.depth + 1

theorem Books.founded (h : f.Books) : f.Founded where
  outermost scope frame hf hroot := (h.rooted scope frame hf hroot).2
  below := h.below

/-- When no frame is live any more, what was recorded agrees. -/
theorem Recorded.agree (h : f.Recorded []) (hsize : f.size ≠ 0) : f.Agree := by
  obtain ⟨hb, hl⟩ := h
  have hbelow {scope : Nat} {frame : Frame} (hf : f.get? scope = some frame) (hne : scope ≠ 0) :
      ∃ p above, frame.parent = some p ∧ p < scope ∧ f.get? p = some above ∧ frame.depth = above.depth + 1 := by
    cases hp : frame.parent with
    | none => exact absurd (hb.rooted scope frame hf hp).1 hne
    | some p =>
      obtain ⟨hlt, above, habove⟩ := hb.below scope frame p hf hp
      exact ⟨p, above, rfl, hlt, habove⟩
  exact {
    root := by
      obtain ⟨frame, hf⟩ := get?_of_lt (Nat.pos_of_ne_zero hsize)
      cases hp : frame.parent with
      | none => exact ⟨frame, hf, hp, (hb.rooted 0 frame hf hp).2⟩
      | some p => exact absurd (hb.below 0 frame p hf hp).1 (Nat.not_lt_zero p)
    below := fun _ _ hf hne => hbelow hf hne
    entered := fun x y hxy hy => (hl.entered x y hxy hy).imp_right And.right
    scopes := hb.scopes
    events := hb.events
    completion := fun scope frame hf => by
      obtain ⟨events, c, hlog, hevents, htemplate, hearly⟩ := hl.ended scope frame hf List.not_mem_nil
      refine ⟨events, c, (hb.events scope frame hf).trans hlog, hevents, htemplate, hearly.trans ?_⟩
      rw [isEarly, hf]
      rfl
    children := hb.children
    returned := fun scope frame p hf hp => hl.returned scope p ((parent?_eq hf).trans hp) List.not_mem_nil
    last := hl.last rfl hsize
    path := fun _ _ hf => hb.founded.callPath_eq hf }

end Frames

/-! ## Traces -/

/-- A frame that is opened gets the number of those that were opened before. -/
def Visit.Counted : Visit → Prop
  | .entered env frames _ => env.scope + 1 = frames.size
  | .refused .. => True

mutual

theorem Invokes.counted {settings : Settings} {caller : Option Env} {callee : Instance} {m k : Machine}
    {visits : List Visit} : Invokes settings caller callee m visits k → ∀ v ∈ visits, v.Counted
  | .refused _ _ => List.forall_mem_singleton.mpr trivial
  | .entered _ he hr => by
      refine List.forall_mem_cons.mpr ⟨?_, hr.counted⟩
      cases he
      exact (m.frames.size_enter _ _).symm

theorem Runs.counted {settings : Settings} {env : Env} {m k : Machine} {addresses : List Nat}
    {visits : List Visit} : Runs settings env m addresses visits k → ∀ v ∈ visits, v.Counted
  | .ends _ => List.forall_mem_nil _
  | .fails _ _ does => does.counted
  | .continues _ _ does run => List.forall_mem_append.mpr ⟨does.counted, run.counted⟩

theorem Follows.counted {settings : Settings} {course : Course (Option Flow)} {flow : Option Flow} {k : Machine}
    {visits : List Visit} : Follows settings course flow visits k → ∀ v ∈ visits, v.Counted
  | .done => List.forall_mem_nil _
  | .call hi hf => List.forall_mem_append.mpr ⟨hi.counted, hf.counted⟩

end

/-- The frame of the outermost instance is there when it has been run, if frames are retained. -/
theorem Invokes.retains {settings : Settings} {bound : Instance} {sink : Sink} {cursor : Nat} {w : Workspace}
    {visits : List Visit} {k : Machine}
    (h : Invokes settings none bound ⟨.empty true, [], sink, cursor, w⟩ visits k) : k.frames.size ≠ 0 := by
  have hkept := framed_kept Frames.recorded_invariant settings
  cases h with
  | @entered _ _ env _ _ l _ _ shallow he run =>
    obtain ⟨-, hm, hr⟩ := hkept.runs run (hkept.enter [] _ _ _ _ _ (framed_start Frames.recorded_empty ..) he shallow)
    have hretained (c : Completion) : (l.frames.recordCompletion c).retained = true :=
      (l.frames.retained_recordCompletion c).trans hr.books.retained
    have hlt := hm.live.lt_size env.here List.mem_cons_self
    rw [Machine.leave, Machine.changeFrames, Frames.exit_retained _ (hretained _), Frames.size_recordCompletion]
    exact Nat.ne_zero_of_lt hlt

/-- The views of a trace agree. In every trace, of any instance, frames are numbered as they are entered, and
their events, those of the frames that they called and the log tell the same. -/
theorem views_agree (i : Interpreter) (bound : Instance) (w : Workspace) :
    let settings : Settings := ⟨i.depthLimit, bound.group, i.listener.getD bound.group.listener⟩
    let start : Machine := ⟨.empty true, [], .output none, 0, w⟩
    ∃ visits, Invokes settings none bound start visits (i.final true none bound w) ∧
      (∀ v ∈ visits, v.Counted) ∧ ((i.trace bound).run w).1.frames.Agree := by
  intro settings start
  obtain ⟨visits, hrender, -⟩ := render_ends i true none bound w
  have hrecorded := Frames.recorded_invariant.final i none bound w Frames.recorded_empty
  exact ⟨visits, hrender, hrender.counted, hrecorded.agree hrender.retains⟩

end Stencil
