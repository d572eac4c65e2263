import Mathlib.Data.List.Nodup
import Mathlib.Data.List.Perm.Subperm
import Stencil.Diagnostic.Nearby
/-! The nearest names: the first three of the different names that are close to a target, by their distances and then by name.
What is suggested in the place of a name are the nearest ones, but for names that are available more than once and
for targets that take more bytes than characters. -/

namespace Stencil

/-! ## The nearest names -/

/-- How many edits away a name may be that is suggested for one of so many characters. -/
def editLimit (target : String) : Nat := if target.length ≤ 3 then 1 else 2

/-- A name that may have been meant. -/
structure Close (target name : String) : Prop where
  other : name ≠ target
  near : Text.distance target name ≤ editLimit target

/-- A name is suggested in front of another one: it is nearer, or as near and first by name. -/
def Before (target a b : String) : Prop :=
  Text.distance target a < Text.distance target b ∨ Text.distance target a = Text.distance target b ∧ a < b

/-- The first three of the different names that are close, or all if they are fewer. -/
structure Nearest (target : String) (available names : List String) : Prop where
  ordered : names.Pairwise (Before target)
  close : ∀ name ∈ names, name ∈ available ∧ Close target name
  few : names.length ≤ 3
  first : ∀ name ∈ available, Close target name → name ∉ names →
    names.length = 3 ∧ ∀ shown ∈ names, Before target shown name

section

variable {target a b c : String} {available names names' : List String}

namespace Before

theorem asymm (h : Before target a b) : ¬ Before target b a := by
  rintro (h' | ⟨h', hn'⟩) <;> rcases h with h | ⟨h, hn⟩
  · exact Nat.lt_asymm h h'
  · exact Nat.lt_irrefl _ (h ▸ h')
  · exact Nat.lt_irrefl _ (h' ▸ h)
  · exact String.lt_asymm hn hn'

theorem ne (h : Before target a b) : a ≠ b := fun he => h.asymm (he ▸ h)

/-- Of two different names, one is in front. -/
theorem of_not (h : ¬ Before target b a) (hne : a ≠ b) : Before target a b := by
  rcases Nat.lt_trichotomy (Text.distance target a) (Text.distance target b) with hd | hd | hd
  · exact .inl hd
  · refine .inr ⟨hd, Decidable.byContradiction fun hn => ?_⟩
    have hba : ¬ b < a := fun hlt => h (.inr ⟨hd.symm, hlt⟩)
    exact hne (String.le_antisymm (String.not_lt.mp hba) (String.not_lt.mp hn))
  · exact absurd (.inl hd) h

end Before

namespace Nearest

theorem nodup (h : Nearest target available names) : names.Nodup := h.ordered.imp Before.ne

/-- What is among the nearest names is so in whatever way they are found. -/
theorem subset (h : Nearest target available names) (h' : Nearest target available names') : names ⊆ names' := by
  intro name hname
  by_contra hout
  obtain ⟨hmem, hclose⟩ := h.close name hname
  obtain ⟨hfull, hbehind⟩ := h'.first name hmem hclose hout
  have hsub : names' ⊆ names := by
    intro other hother
    by_contra hnot
    obtain ⟨hmem', hclose'⟩ := h'.close other hother
    exact (hbehind other hother).asymm ((h.first other hmem' hclose' hnot).2 name hname)
  have hcount : (name :: names').length ≤ names.length :=
    (List.nodup_cons.mpr ⟨hout, h'.nodup⟩).length_le_of_subset (List.cons_subset.mpr ⟨hname, hsub⟩)
  have := h.few
  rw [List.length_cons, hfull] at hcount
  omega

theorem unique (h : Nearest target available names) (h' : Nearest target available names') : names = names' :=
  List.Perm.eq_of_pairwise (fun _ _ _ _ hab hba => absurd hba hab.asymm) h.ordered h'.ordered
    ((List.perm_ext_iff_of_nodup h.nodup h'.nodup).mpr fun _ => ⟨(h.subset h' ·), (h'.subset h ·)⟩)

end Nearest

/-! ## What is suggested -/

/-- Whether a name is suggested if there are no nearer ones. -/
def isNearby (target name : String) : Bool := Text.distance target name ≤ nearbyLimit target && name != target

/-- The names that may be suggested, each with its distance. -/
def scored (target : String) (available : List String) : List (Nat × String) :=
  (available.filter (isNearby target)).map fun name => (Text.distance target name, name)

/-- The order in which names are suggested, by their distances and then by the names. -/
def inFront (a b : Nat × String) : Bool := a.1 < b.1 || (a.1 == b.1 && !(b.2 < a.2))

theorem nearby_eq (target : String) (available : List String) :
    nearby target available = (((scored target available).mergeSort inFront).take 3).map Prod.snd := by
  rw [nearby, List.filter_map]
  rfl

section

variable (x y z : Nat × String)

theorem inFront_iff : inFront x y = true ↔ x.1 < y.1 ∨ x.1 = y.1 ∧ x.2 ≤ y.2 := by
  simp only [inFront, Bool.or_eq_true, Bool.and_eq_true, Bool.not_eq_true', decide_eq_true_eq, beq_iff_eq,
    decide_eq_false_iff_not, String.not_lt]

theorem inFront_trans (h : inFront x y = true) (h' : inFront y z = true) : inFront x z = true := by
  rw [inFront_iff] at *
  rcases h with h | ⟨h, hn⟩ <;> rcases h' with h' | ⟨h', hn'⟩
  · exact .inl (Nat.lt_trans h h')
  · exact .inl (h' ▸ h)
  · exact .inl (h ▸ h')
  · exact .inr ⟨h.trans h', String.le_trans hn hn'⟩

theorem inFront_total : (inFront x y || inFront y x) = true := by
  rw [Bool.or_eq_true, inFront_iff, inFront_iff]
  rcases Nat.lt_trichotomy x.1 y.1 with hd | hd | hd
  · exact .inl (.inl hd)
  · exact (String.le_total x.2 y.2).imp (fun h => .inr ⟨hd, h⟩) fun h => .inr ⟨hd.symm, h⟩
  · exact .inr (.inl hd)

end

/-- What is in front of a name by its distance does not come behind it. -/
theorem not_before (h : inFront (Text.distance target a, a) (Text.distance target b, b) = true) : ¬ Before target b a := by
  rintro (h' | ⟨h', hn'⟩) <;> rcases (inFront_iff _ _).mp h with h | ⟨h, hn⟩
  · exact Nat.lt_asymm h h'
  · exact Nat.ne_of_gt h' h
  · exact Nat.ne_of_lt h h'.symm
  · exact String.not_lt.mpr hn hn'

/-- The names that are suggested are the first three of all that are near, in order and as often as they are available. -/
theorem nearby_spec (target : String) (available : List String) :
    ∃ all : List String, all.Perm (available.filter (isNearby target)) ∧
      all.Pairwise (fun a b => ¬ Before target b a) ∧ nearby target available = all.take 3 := by
  have hperm := List.mergeSort_perm (scored target available) inFront
  have hsorted := List.pairwise_mergeSort inFront_trans inFront_total (scored target available)
  refine ⟨((scored target available).mergeSort inFront).map Prod.snd, ?_, ?_, ?_⟩
  · refine (hperm.map Prod.snd).trans (.of_eq ?_)
    rw [scored, List.map_map]
    exact List.map_id _
  · refine List.pairwise_map.mpr (hsorted.imp_of_mem fun {x y} hx hy hxy => ?_)
    obtain ⟨a, -, rfl⟩ := List.mem_map.mp (hperm.mem_iff.mp hx)
    obtain ⟨b, -, rfl⟩ := List.mem_map.mp (hperm.mem_iff.mp hy)
    exact not_before hxy
  · rw [nearby_eq, List.map_take]

theorem before_of_mem_drop {all : List String} {n : Nat} (h : all.Pairwise fun a b => ¬ Before target b a)
    (ha : a ∈ all.take n) (hb : b ∈ all.drop n) (hne : a ≠ b) : Before target a b := by
  rw [← List.take_append_drop n all] at h
  exact .of_not ((List.pairwise_append.mp h).2.2 a ha b hb) hne

theorem length_le_utf8ByteSize (s : String) : s.length ≤ s.utf8ByteSize := by
  induction s using String.push_induction with
  | empty => exact Nat.le_refl 0
  | push s c ih =>
    have := c.utf8Size_pos
    rw [String.length_push, String.utf8ByteSize_push]
    omega

theorem editLimit_le (target : String) : editLimit target ≤ nearbyLimit target := by
  have := length_le_utf8ByteSize target
  unfold editLimit nearbyLimit
  split <;> split <;> omega

/-- Names are the nearest if they are different and no farther away than the characters allow. -/
theorem nearest_iff (target : String) (available : List String) :
    Nearest target available (nearby target available) ↔
      (nearby target available).Nodup ∧ ∀ name ∈ nearby target available, Close target name := by
  constructor
  · exact fun h => ⟨h.nodup, fun name hname => (h.close name hname).2⟩
  · rintro ⟨hnodup, hclose⟩
    obtain ⟨all, hperm, hsorted, heq⟩ := nearby_spec target available
    rw [heq] at hnodup hclose ⊢
    have hmem (name : String) : name ∈ all ↔ name ∈ available ∧ isNearby target name = true := by
      rw [hperm.mem_iff, List.mem_filter]
    refine ⟨?_, fun name hname => ⟨((hmem name).mp (List.mem_of_mem_take hname)).1, hclose name hname⟩,
      List.length_take_le _ _, fun name hname hc hnot => ?_⟩
    · exact (hsorted.sublist (List.take_sublist _ _)).imp₂ (fun _ _ => Before.of_not) hnodup
    · have hnear : isNearby target name = true := by
        simpa [isNearby] using ⟨Nat.le_trans hc.near (editLimit_le target), hc.other⟩
      have hdrop : name ∈ all.drop 3 := by
        have hall := (hmem name).mpr ⟨hname, hnear⟩
        rw [← List.take_append_drop 3 all, List.mem_append] at hall
        exact hall.resolve_left hnot
      refine ⟨?_, fun shown hshown => ?_⟩
      · have := List.length_pos_of_mem hdrop
        rw [List.length_drop] at this
        rw [List.length_take]
        omega
      · exact before_of_mem_drop hsorted hshown hdrop fun he => hnot (he ▸ hshown)

-- Names that are available twice are suggested twice, and bytes are counted where characters should be.
example : nearby "nme" ["name", "name"] = ["name", "name"] ∧ nearby "ééx" ["abx"] = ["abx"] := by
  constructor <;> cbv

/-- What is suggested as it should be: the target is as short in bytes as in characters, and no name that is near it is
available more than once. -/
structure Suggestible (target : String) (available : List String) : Prop where
  bytes : target.length ≤ 3 → target.utf8ByteSize ≤ 3
  once : ∀ name, isNearby target name = true → available.count name ≤ 1

/-- Names are different if they are available once. -/
theorem nearby_nodup (h : ∀ name, isNearby target name = true → available.count name ≤ 1) :
    (nearby target available).Nodup := by
  obtain ⟨all, hperm, -, heq⟩ := nearby_spec target available
  have hall : all.Nodup := by
    refine hperm.nodup_iff.mpr (List.nodup_iff_count_le_one.mpr fun name => ?_)
    by_cases hn : isNearby target name = true
    · rw [List.count_filter hn]
      exact h name hn
    · rw [List.count_eq_zero_of_not_mem fun hm => hn (List.mem_filter.mp hm).2]
      exact Nat.zero_le 1
  exact heq ▸ hall.sublist (List.take_sublist _ _)

theorem mem_nearby {name : String} (h : name ∈ nearby target available) :
    name ∈ available ∧ isNearby target name = true := by
  obtain ⟨all, hperm, -, heq⟩ := nearby_spec target available
  exact List.mem_filter.mp (hperm.mem_iff.mp (List.mem_of_mem_take (heq ▸ h)))

theorem Suggestible.nearest (h : Suggestible target available) : Nearest target available (nearby target available) := by
  refine (nearest_iff target available).mpr ⟨nearby_nodup h.once, fun name hname => ?_⟩
  have hlimit : nearbyLimit target = editLimit target := by
    have := length_le_utf8ByteSize target
    have := h.bytes
    unfold editLimit nearbyLimit
    split <;> split <;> omega
  have hnear := (mem_nearby hname).2
  simp only [isNearby, hlimit, Bool.and_eq_true, decide_eq_true_eq, bne_iff_ne] at hnear
  exact ⟨hnear.2, hnear.1⟩

end

end Stencil
