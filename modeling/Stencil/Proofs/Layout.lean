import Stencil.Proofs.Hushed
/-! How the events of a render lie. What happens in frames that do not run early nests as the frames do: in the log,
in the output, and in what is written by the expressions that run them. -/

namespace Stencil

/-- The stretch of output that an event tells of. -/
def Event.output : Event → Extent
  | .wrote w => w.output
  | .completed c => c.output

namespace Extent

/-- A stretch of the output lies inside another one. -/
def Within (x y : Extent) : Prop := y.start ≤ x.start ∧ x.stop ≤ y.stop

/-- A stretch of the output ends before another one starts. -/
def Before (x y : Extent) : Prop := x.stop ≤ y.start

end Extent

namespace Frames

variable {f : Frames} {D : Nat → Nat → Event → Prop}

/-! ## Frames and calls

`D n since e` is what is known of the `n`-th event `e`, when those from number `since` on were recorded meanwhile. -/

mutual

/-- From one event of a log to another, instructions are carried out in a frame, which does not run early, and what they
write goes from one position to another. -/
inductive InFrame (f : Frames) (D : Nat → Nat → Event → Prop) : Nat → Nat → Nat → Nat → Nat → Prop where
  | text {scope lo hi a} (hle : lo ≤ hi) : InFrame f D scope lo hi a a
  | early {scope lo hi a b e} (first : InFrame f D scope lo hi a b) (event : f.log[b]? = some e) (he : e.IsEarly) :
      InFrame f D scope lo hi a (b + 1)
  | wrote {scope lo hi a b n w} (first : InFrame f D scope lo w.output.start a b)
      (calls : InWrite f D scope w.output.start w.output.stop b n) (event : f.log[n]? = some (.wrote w))
      (known : D n b (.wrote w)) (hw : w.scope = scope) (hle : w.output.stop ≤ hi) :
      InFrame f D scope lo hi a (n + 1)

/-- From one event of a log to another, an expression of a frame is written and calls instances. -/
inductive InWrite (f : Frames) (D : Nat → Nat → Event → Prop) : Nat → Nat → Nat → Nat → Nat → Prop where
  | text {scope lo hi a} (hle : lo ≤ hi) : InWrite f D scope lo hi a a
  | called {scope lo hi a b n c} (first : InWrite f D scope lo c.output.start a b)
      (body : InFrame f D c.scope c.output.start c.output.stop b n) (event : f.log[n]? = some (.completed c))
      (known : D n b (.completed c)) (hc : c.early = false) (hp : f.parent? c.scope = some scope)
      (hlt : scope < c.scope) (hle : c.output.stop ≤ hi) : InWrite f D scope lo hi a (n + 1)

end

variable {i j : Nat} {e e' : Event}

mutual

theorem InFrame.le {scope lo hi a b : Nat} : InFrame f D scope lo hi a b → lo ≤ hi ∧ a ≤ b
  | .text hle => ⟨hle, Nat.le_refl _⟩
  | .early first _ _ => ⟨first.le.1, Nat.le_succ_of_le first.le.2⟩
  | .wrote first calls _ _ _ hle => ⟨Nat.le_trans first.le.1 (Nat.le_trans calls.le.1 hle),
      Nat.le_succ_of_le (Nat.le_trans first.le.2 calls.le.2)⟩

theorem InWrite.le {scope lo hi a b : Nat} : InWrite f D scope lo hi a b → lo ≤ hi ∧ a ≤ b
  | .text hle => ⟨hle, Nat.le_refl _⟩
  | .called first body _ _ _ _ _ hle => ⟨Nat.le_trans first.le.1 (Nat.le_trans body.le.1 hle),
      Nat.le_succ_of_le (Nat.le_trans first.le.2 body.le.2)⟩

end

/-- Text may follow. -/
theorem InFrame.upto {scope lo hi hi' a b : Nat} : InFrame f D scope lo hi a b → hi ≤ hi' → InFrame f D scope lo hi' a b
  | .text h, hle => .text (Nat.le_trans h hle)
  | .early first event he, hle => .early (first.upto hle) event he
  | .wrote first calls event known hw h, hle => .wrote first calls event known hw (Nat.le_trans h hle)

theorem InWrite.upto {scope lo hi hi' a b : Nat} : InWrite f D scope lo hi a b → hi ≤ hi' → InWrite f D scope lo hi' a b
  | .text h, hle => .text (Nat.le_trans h hle)
  | .called first body event known hc hp hlt h, hle => .called first body event known hc hp hlt (Nat.le_trans h hle)

/-! ## Where events lie -/

/-- An event that did not run early, with a number from one to another. -/
structure Counts (f : Frames) (a b i : Nat) (e : Event) : Prop where
  ge : a ≤ i
  lt : i < b
  event : f.log[i]? = some e
  loud : ¬ e.IsEarly

namespace Counts

variable {a b c : Nat}

theorem not_empty (h : f.Counts a a i e) : False := Nat.lt_irrefl _ (Nat.lt_of_le_of_lt h.ge h.lt)

/-- One of the first, or of those behind them. -/
theorem split (h : f.Counts a b i e) (c : Nat) : f.Counts a c i e ∨ f.Counts c b i e := by
  rcases Nat.lt_or_ge i c with hc | hc
  · exact .inl { h with lt := hc }
  · exact .inr { h with ge := hc }

/-- One of the earlier ones, or the last. -/
theorem last (h : f.Counts a (b + 1) i e) (event : f.log[b]? = some e') : f.Counts a b i e ∨ i = b ∧ e = e' := by
  rcases Nat.lt_succ_iff_lt_or_eq.mp h.lt with hb | rfl
  · exact .inl { h with lt := hb }
  · exact .inr ⟨rfl, Option.some.inj (h.event.symm.trans event)⟩

/-- One of the first, or of those behind them, or the last. -/
theorem parts (h : f.Counts a (b + 1) i e) (event : f.log[b]? = some e') (c : Nat) :
    f.Counts a c i e ∨ f.Counts c b i e ∨ i = b ∧ e = e' := by
  rcases h.last event with h | h
  · exact (h.split c).imp_right .inl
  · exact .inr (.inr h)

theorem earlier (h : f.Counts a b i e) (hij : i < j) {a' : Nat} (h' : f.Counts a' c j e') : f.Counts a c i e :=
  { h with lt := Nat.lt_trans hij h'.lt }

end Counts

mutual

/-- What counts lies in the stretch of what it happens in, and is known. -/
theorem InFrame.inside {scope lo hi a b : Nat} : InFrame f D scope lo hi a b → f.Counts a b i e →
    e.output.Within ⟨lo, hi⟩ ∧ ∃ since, a ≤ since ∧ since ≤ i ∧ D i since e
  | .text _, h => h.not_empty.elim
  | .early first event he, h => by
      rcases h.last event with h | ⟨rfl, rfl⟩
      · exact first.inside h
      · exact absurd he h.loud
  | .wrote first calls event known _ hle, h => by
      have hfirst := first.le
      have hcalls := calls.le
      rcases h.parts event _ with h | h | ⟨rfl, rfl⟩
      · obtain ⟨⟨hlo, hhi⟩, hknown⟩ := first.inside h
        exact ⟨⟨hlo, Nat.le_trans hhi (Nat.le_trans hcalls.1 hle)⟩, hknown⟩
      · obtain ⟨⟨hlo, hhi⟩, since, hs, hknown⟩ := calls.inside h
        exact ⟨⟨Nat.le_trans hfirst.1 hlo, Nat.le_trans hhi hle⟩, since, Nat.le_trans hfirst.2 hs, hknown⟩
      · exact ⟨⟨hfirst.1, hle⟩, _, hfirst.2, hcalls.2, known⟩

theorem InWrite.inside {scope lo hi a b : Nat} : InWrite f D scope lo hi a b → f.Counts a b i e →
    e.output.Within ⟨lo, hi⟩ ∧ ∃ since, a ≤ since ∧ since ≤ i ∧ D i since e
  | .text _, h => h.not_empty.elim
  | .called first body event known _ _ _ hle, h => by
      have hfirst := first.le
      have hbody := body.le
      rcases h.parts event _ with h | h | ⟨rfl, rfl⟩
      · obtain ⟨⟨hlo, hhi⟩, hknown⟩ := first.inside h
        exact ⟨⟨hlo, Nat.le_trans hhi (Nat.le_trans hbody.1 hle)⟩, hknown⟩
      · obtain ⟨⟨hlo, hhi⟩, since, hs, hknown⟩ := body.inside h
        exact ⟨⟨Nat.le_trans hfirst.1 hlo, Nat.le_trans hhi hle⟩, since, Nat.le_trans hfirst.2 hs, hknown⟩
      · exact ⟨⟨hfirst.1, hle⟩, _, hfirst.2, hbody.2, known⟩

end

/-- The frame that an event is a part of: that of an expression, and for a frame the one that called it. -/
def owner? (f : Frames) : Event → Option Nat
  | .wrote w => some w.scope
  | .completed c => f.parent? c.scope

mutual

/-- What counts while instructions of a frame are carried out is a part of that frame or of a later one. -/
theorem InFrame.owned {scope lo hi a b : Nat} : InFrame f D scope lo hi a b → f.Counts a b i e →
    ∃ p, f.owner? e = some p ∧ scope ≤ p
  | .text _, h => h.not_empty.elim
  | .early first event he, h => by
      rcases h.last event with h | ⟨rfl, rfl⟩
      · exact first.owned h
      · exact absurd he h.loud
  | .wrote first calls event _ hw _, h => by
      rcases h.parts event _ with h | h | ⟨rfl, rfl⟩
      · exact first.owned h
      · exact (calls.owned h).1
      · exact ⟨_, rfl, Nat.le_of_eq hw.symm⟩

/-- What counts while an expression is written is a part of the frame or of a later one, and expressions are of
later ones. -/
theorem InWrite.owned {scope lo hi a b : Nat} : InWrite f D scope lo hi a b → f.Counts a b i e →
    (∃ p, f.owner? e = some p ∧ scope ≤ p) ∧ ∀ w, e = .wrote w → scope < w.scope
  | .text _, h => h.not_empty.elim
  | .called first body event _ _ hp hlt _, h => by
      rcases h.parts event _ with h | h | ⟨rfl, rfl⟩
      · exact first.owned h
      · obtain ⟨p, howner, hle⟩ := body.owned h
        refine ⟨⟨p, howner, Nat.le_trans (Nat.le_of_lt hlt) hle⟩, fun w hw => ?_⟩
        subst hw
        cases howner
        exact Nat.lt_of_lt_of_le hlt hle
      · exact ⟨⟨_, hp, Nat.le_refl _⟩, nofun⟩

end

/-! ## The order of events -/

/-- Two expressions of a frame, or two frames that one called. -/
inductive Siblings (f : Frames) : Event → Event → Prop where
  | writings {w w'} (h : w.scope = w'.scope) : Siblings f (.wrote w) (.wrote w')
  | children {c c'} (h : f.parent? c.scope = f.parent? c'.scope) : Siblings f (.completed c) (.completed c')

mutual

/-- The parts of a frame are in order and do not overlap. -/
theorem InFrame.ordered {scope lo hi a b : Nat} : InFrame f D scope lo hi a b → f.Counts a b i e →
    f.Counts a b j e' → i < j → f.Siblings e e' → e.output.Before e'.output
  | .text _, h, _, _, _ => h.not_empty.elim
  | .early first event he, h, h', hij, hs => by
      rcases h'.last event with h' | ⟨rfl, rfl⟩
      · exact first.ordered (h.earlier hij h') h' hij hs
      · exact absurd he h'.loud
  | .wrote first calls event _ hw _, h, h', hij, hs => by
      rcases h'.parts event _ with h' | h' | ⟨rfl, rfl⟩
      · exact first.ordered (h.earlier hij h') h' hij hs
      · rcases (h.earlier hij h').split _ with h | h
        · exact Nat.le_trans (first.inside h).1.2 (calls.inside h').1.1
        · exact calls.ordered h h' hij hs
      · rcases ({ h with lt := hij } : f.Counts _ _ _ _).split _ with h | h
        · exact (first.inside h).1.2
        · -- no expression of the frame is written while another one is
          cases hs with
          | writings hs => exact absurd ((calls.owned h).2 _ rfl) (Nat.not_lt.mpr (Nat.le_of_eq (hs.trans hw)))

theorem InWrite.ordered {scope lo hi a b : Nat} : InWrite f D scope lo hi a b → f.Counts a b i e →
    f.Counts a b j e' → i < j → f.Siblings e e' → e.output.Before e'.output
  | .text _, h, _, _, _ => h.not_empty.elim
  | .called first body event _ _ hp hlt _, h, h', hij, hs => by
      rcases h'.parts event _ with h' | h' | ⟨rfl, rfl⟩
      · exact first.ordered (h.earlier hij h') h' hij hs
      · rcases (h.earlier hij h').split _ with h | h
        · exact Nat.le_trans (first.inside h).1.2 (body.inside h').1.1
        · exact body.ordered h h' hij hs
      · rcases ({ h with lt := hij } : f.Counts _ _ _ _).split _ with h | h
        · exact (first.inside h).1.2
        · -- what a frame calls is no part of the one that called it
          cases hs with
          | children hs =>
            obtain ⟨p, howner, hle⟩ := body.owned h
            cases howner.symm.trans (hs.trans hp)
            exact absurd hlt (Nat.not_lt.mpr hle)

end

/-! ## The expressions that run frames -/

/-- Before some event, the expression is recorded that ran a frame, and its stretch holds that of the frame. -/
def RunBefore (f : Frames) (D : Nat → Nat → Event → Prop) (b i : Nat) (c : Completion) : Prop :=
  ∃ w j since, f.parent? c.scope = some w.scope ∧ i < j ∧ j < b ∧ f.log[j]? = some (.wrote w) ∧
    D j since (.wrote w) ∧ since ≤ i ∧ c.output.Within w.output

/-- Before some event, the frame is completed that called a frame, and its stretch holds that of the other. -/
def CallerBefore (f : Frames) (b i : Nat) (c : Completion) : Prop :=
  ∃ d j, f.parent? c.scope = some d.scope ∧ i < j ∧ j < b ∧ f.log[j]? = some (.completed d) ∧ d.early = false ∧
    c.output.Within d.output

theorem RunBefore.mono {b b' : Nat} {c : Completion} (h : f.RunBefore D b i c) (hb : b ≤ b') : f.RunBefore D b' i c :=
  have ⟨w, j, since, hp, hi, hj, h⟩ := h
  ⟨w, j, since, hp, hi, Nat.lt_of_lt_of_le hj hb, h⟩

theorem CallerBefore.mono {b b' : Nat} {c : Completion} (h : f.CallerBefore b i c) (hb : b ≤ b') : f.CallerBefore b' i c :=
  have ⟨d, j, hp, hi, hj, h⟩ := h
  ⟨d, j, hp, hi, Nat.lt_of_lt_of_le hj hb, h⟩

variable {c : Completion}

mutual

/-- A frame that is completed while instructions of a frame are carried out has been run by an expression, of that
frame or of one that is completed as well. -/
theorem InFrame.housed {scope lo hi a b : Nat} : InFrame f D scope lo hi a b → f.Counts a b i (.completed c) →
    f.RunBefore D b i c ∧ (f.parent? c.scope = some scope ∨ f.CallerBefore b i c)
  | .text _, h => h.not_empty.elim
  | .early first event he, h => by
      rcases h.last event with h | ⟨rfl, rfl⟩
      · exact (first.housed h).imp (·.mono (Nat.le_succ _)) (Or.imp_right (·.mono (Nat.le_succ _)))
      · exact absurd he h.loud
  | .wrote first calls event known hw _, h => by
      rcases h.parts event _ with h | h | ⟨_, hc⟩
      · have hle := Nat.le_succ_of_le calls.le.2
        exact (first.housed h).imp (·.mono hle) (Or.imp_right (·.mono hle))
      · rcases calls.housed h with hp | ⟨hr, hc⟩
        · exact ⟨⟨_, _, _, hw ▸ hp, h.lt, Nat.lt_succ_self _, event, known, h.ge, (calls.inside h).1⟩, .inl hp⟩
        · exact ⟨hr.mono (Nat.le_succ _), .inr (hc.mono (Nat.le_succ _))⟩
      · cases hc

/-- A frame that is completed while an expression is written is called by it, or has been run by another expression, of
a frame that is completed as well. -/
theorem InWrite.housed {scope lo hi a b : Nat} : InWrite f D scope lo hi a b → f.Counts a b i (.completed c) →
    f.parent? c.scope = some scope ∨ f.RunBefore D b i c ∧ f.CallerBefore b i c
  | .text _, h => h.not_empty.elim
  | .called first body event _ hc hp _ _, h => by
      rcases h.parts event _ with h | h | ⟨_, he⟩
      · have hle := Nat.le_succ_of_le body.le.2
        exact (first.housed h).imp_right fun ⟨hr, hc⟩ => ⟨hr.mono hle, hc.mono hle⟩
      · obtain ⟨hr, hcaller⟩ := body.housed h
        refine .inr ⟨hr.mono (Nat.le_succ _), hcaller.elim (fun hp => ?_) (·.mono (Nat.le_succ _))⟩
        exact ⟨_, _, hp, h.lt, Nat.lt_succ_self _, event, hc, (body.inside h).1⟩
      · cases he
        exact .inl hp

end

end Frames

end Stencil
