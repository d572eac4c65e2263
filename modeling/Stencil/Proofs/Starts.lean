import Stencil.Proofs.Correctness
/-! The instances that a render starts, in order. -/

namespace Stencil

open Rendering

variable {α β : Type}

/-- What is noted down where a course calls instances, if `run` runs them. -/
def Course.collect {X : Type} (run : Env → Instance → Machine → Course Unit)
    (note : Env → Instance → Machine → List X) : Course α → List X
  | .done _ _ => []
  | .call env bound m rest =>
    note env bound m ++ (rest (run env bound m).machine).collect run note
  | .fallback rest => rest.collect run note

/-- An instance that starts, in its environment and with the frames that there are then. -/
structure Start where
  env : Env
  frames : Frames

/-- The instances that start while an instance runs, that one first. -/
def starts (settings : Settings) (body : Env → Rendering Unit) :
    Nat → Option Env → Instance → Machine → List Start
  | 0, _, _, _ => []
  | n + 1, caller, bound, m =>
    ⟨(m.enter caller bound).1, (m.enter caller bound).2.frames⟩ ::
      (body (m.enter caller bound).1 (m.enter caller bound).2).collect
        (fun env bound => nest settings body n (some env) bound)
        (fun env bound => starts settings body n (some env) bound)

/-- Frames that are opened get consecutive numbers, and all are kept. The activations that are there when
an instance starts were started too, or are outside. -/
structure Numbered (outside : List Activation) (size : Nat) (noted : List Start) (m : Machine) :
    Prop where
  numbers : (noted.map fun s => s.env.scope) = List.range' size noted.length
  size : m.frames.size = size + noted.length
  known : ∀ s ∈ noted, ∀ a ∈ s.env.activations, a ∈ outside ∨ ∃ t ∈ noted, t.env.here = a

theorem Numbered.append {outside : List Activation} {n : Nat} {noted noted' : List Start} {m k : Machine}
    (h : Numbered outside n noted m) (h' : Numbered outside m.frames.size noted' k) :
    Numbered outside n (noted ++ noted') k where
  numbers := by
    rw [List.map_append, h.numbers, h'.numbers, h.size, List.range'_append_1, List.length_append]
  size := by rw [h'.size, h.size, List.length_append, Nat.add_assoc]
  known s hs a ha := by
    rcases List.mem_append.mp hs with hs | hs
    · refine (h.known s hs a ha).imp_right fun ⟨t, ht, he⟩ => ⟨t, List.mem_append_left _ ht, he⟩
    · refine (h'.known s hs a ha).imp_right fun ⟨t, ht, he⟩ => ⟨t, List.mem_append_right _ ht, he⟩

/-- Only the environments matter. -/
theorem Numbered.congr {outside : List Activation} {n : Nat} {noted noted' : List Start} {m : Machine}
    (h : Numbered outside n noted m) (he : noted.map Start.env = noted'.map Start.env) :
    Numbered outside n noted' m where
  numbers := by
    have hn := congrArg (List.map Env.scope) he
    rw [List.map_map, List.map_map] at hn
    have hl : noted.length = noted'.length := by simpa using congrArg List.length he
    exact hl ▸ hn.symm.trans h.numbers
  size := by rw [h.size, ← List.length_map Start.env, he, List.length_map]
  known s hs a ha := by
    obtain ⟨s', hs', he'⟩ := List.mem_map.mp (he ▸ List.mem_map_of_mem hs)
    refine (h.known s' hs' a (he' ▸ ha)).imp_right fun ⟨t', ht', ha'⟩ => ?_
    obtain ⟨t, ht, het⟩ := List.mem_map.mp (he ▸ List.mem_map_of_mem ht')
    exact ⟨t, ht, het ▸ ha'⟩

namespace Course.Similar

variable {A : Accord} {post : α → β → Machine → Machine → Prop} {c : Course α} {c' : Course β}
  {run run' : Env → Instance → Machine → Course Unit}

/-- What is noted down in similar courses is related if it is in the calls. -/
theorem collect {X Y : Type} {Q : X → Y → Prop} {note : Env → Instance → Machine → List X}
    {note' : Env → Instance → Machine → List Y} {n : Nat} (h : c.Similar A post n c')
    (hrun : ∀ env bound env' bound' kept, A env bound env' bound' kept → ∀ m m', kept m m' →
      (run env bound m).Ends (fun _ _ => kept) (run' env' bound' m') ∧
        List.Forall₂ Q (note env bound m) (note' env' bound' m')) :
    List.Forall₂ Q (c.collect run note) (c'.collect run' note') := by
  induction h with
  | done => exact .nil
  | call h hm _ _ ih =>
    obtain ⟨⟨_, _, k, k', hk, hk', hkept⟩, hn⟩ := hrun _ _ _ _ _ h _ _ hm
    rw [Course.collect, Course.collect, hk, hk']
    exact List.rel_append hn (ih k k' hkept)

/-- If calls number their frames, so does the course. -/
theorem numbered {note : Env → Instance → Machine → List Start} {outside : List Activation} {n : Nat}
    (h : c.Similar A post n c')
    (hrun : ∀ env bound env' bound' kept, A env bound env' bound' kept → ∀ m m', kept m m' →
      (run env bound m).Ends (fun _ _ => kept) (run' env' bound' m') ∧
        Numbered outside m'.frames.size (note env' bound' m') (run' env' bound' m').machine) :
    Numbered outside n (c'.collect run' note) (c'.handle run').machine := by
  induction h with
  | done _ hn => exact ⟨rfl, hn, nofun⟩
  | call h hm hn _ ih =>
    obtain ⟨⟨_, _, k, k', hk, hk', hkept⟩, hnum⟩ := hrun _ _ _ _ _ h _ _ hm
    rw [hk'] at hnum
    rw [Course.collect, Course.handle, hk']
    exact hn ▸ hnum.append (ih k k' hkept)

end Course.Similar

end Stencil
