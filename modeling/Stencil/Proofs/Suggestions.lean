import Stencil.Proofs.Acceptance
import Stencil.Proofs.Compilation
import Stencil.Proofs.Nearest
/-! What is suggested for attributes that are not defined: parameters that are in scope where the attribute stands. -/

namespace Stencil

/-! ## Attributes that are not defined -/

section

variable {s : Scope} {f : Finding}

theorem callFindings_kind {d : Directory} {mapped : Bool} {callee : Callee} {arguments : Arguments} {span : Span}
    (h : f ∈ callFindings d mapped callee arguments span) : f.problem.kind ≠ .noSuchAttribute := by
  cases hd : d.find? callee with
  | none =>
    simp only [callFindings, hd, List.mem_singleton] at h
    rcases h with rfl
    rintro ⟨⟩
  | some formals =>
    rw [callFindings_some hd] at h
    split at h
    · rcases List.mem_append.mp h with h | h <;> split at h
      · cases h
      · rcases List.mem_singleton.mp h with rfl
        rintro ⟨⟩
      · cases h
      · rcases List.mem_singleton.mp h with rfl
        rintro ⟨⟩
    · split at h
      · rcases List.mem_singleton.mp h with rfl
        rintro ⟨⟩
      · cases h

theorem TagOption.nameFindings_kind {seen : List String} {options : List TagOption}
    (h : f ∈ nameFindings seen options) : f.problem.kind ≠ .noSuchAttribute := by
  induction options generalizing seen with
  | nil => cases h
  | cons o rest ih =>
    rw [nameFindings] at h
    split at h
    · rcases List.mem_cons.mp h with rfl | h
      · rintro ⟨⟩
      · exact ih h
    · split at h
      · rcases List.mem_cons.mp h with rfl | h
        · rintro ⟨⟩
        · exact ih h
      · exact ih h

theorem TagOption.mem_valueFindings {wanted : String} {options : List TagOption}
    (h : f ∈ valueFindings s wanted options) : ∃ o ∈ options, f ∈ o.value.findings s false := by
  induction options with
  | nil => cases h
  | cons o rest ih =>
    cases o
    rw [valueFindings] at h
    split at h
    · exact ⟨_, List.mem_cons_self, h⟩
    · obtain ⟨o, ho, hf⟩ := ih h
      exact ⟨o, List.mem_cons_of_mem _ ho, hf⟩

theorem Expr.mem_findingsAll {mapped : Bool} {es : List Expr} (h : f ∈ findingsAll s mapped es) :
    ∃ e ∈ es, f ∈ e.findings s mapped := by
  induction es with
  | nil => cases h
  | cons e rest ih =>
    rw [findingsAll] at h
    simpa using (List.mem_append.mp h).imp_right ih

theorem Element.mem_findingsAll {es : List Element} (h : f ∈ findingsAll s es) : ∃ e ∈ es, f ∈ e.findings s := by
  induction es with
  | nil => cases h
  | cons e rest ih =>
    rw [findingsAll] at h
    simpa using (List.mem_append.mp h).imp_right ih

theorem Branch.mem_findingsAll {bs : List Branch} (h : f ∈ findingsAll s bs) :
    ∃ b ∈ bs, f ∈ b.condition.findings s ∨ ∃ e ∈ b.body, f ∈ e.findings s := by
  induction bs with
  | nil => cases h
  | cons b rest ih =>
    cases b
    rw [findingsAll, List.mem_append, List.mem_append] at h
    rcases h with h | h
    · exact ⟨_, List.mem_cons_self, h.imp_right Element.mem_findingsAll⟩
    · obtain ⟨b, hb, hf⟩ := ih h
      exact ⟨b, List.mem_cons_of_mem _ hb, hf⟩

theorem NamedArgument.nameFindings_kind {callee : Option (String × Formals)} {seen : List String} {name : String}
    {span : Span} (h : f ∈ nameFindings callee seen name span) : f.problem.kind ≠ .noSuchAttribute := by
  unfold nameFindings at h
  split at h
  · rcases List.mem_singleton.mp h with rfl
    rintro ⟨⟩
  · split at h
    · split at h
      · cases h
      · rcases List.mem_singleton.mp h with rfl
        rintro ⟨⟩
    · cases h

theorem NamedArgument.mem_findingsAll {callee : Option (String × Formals)} {seen : List String} {as : List NamedArgument}
    (h : f ∈ findingsAll s callee seen as) (hk : f.problem.kind = .noSuchAttribute) :
    ∃ e ∈ as.map value, f ∈ e.findings s false := by
  induction as generalizing seen with
  | nil => cases h
  | cons a rest ih =>
    cases a
    rw [findingsAll_cons, List.mem_append, List.mem_append] at h
    rcases h with (h | h) | h
    · exact absurd hk (nameFindings_kind h)
    · exact ⟨_, List.mem_cons_self, h⟩
    · obtain ⟨e, he, hf⟩ := ih h
      exact ⟨e, List.mem_cons_of_mem _ he, hf⟩

theorem Arguments.mem_findings {callee : Option (String × Formals)} {as : Arguments} (h : f ∈ as.findings s callee)
    (hk : f.problem.kind = .noSuchAttribute) : ∃ e ∈ as.values, f ∈ e.findings s false := by
  cases as with
  | positional es => exact Expr.mem_findingsAll h
  | named as => exact NamedArgument.mem_findingsAll h hk

end

namespace Spot

/-- The names of the parameters that are in scope at a part of a template. -/
def visible (formals : Formals) (s : Spot) : List String := formals.parameters.map Parameter.name ++ s.around

/-- A part of a template that is an attribute which is not defined, and what is found there. -/
structure Lacks (formals : Formals) (s : Spot) (name : String) (f : Finding) : Prop where
  node : ∃ mapped, s.node = .expr mapped (.attribute name f.span)
  unknown : ¬ formals.Knows name ∧ name ∉ s.around
  problem : f.problem = .noSuchAttribute name (s.visible formals)

variable {d : Directory} {formals : Formals} {f : Finding}

theorem candidates_behind (d : Directory) (formals : Formals) (s : Spot) :
    (Scope.behind d formals s.around).candidates = s.visible formals := by
  have hone (p : String) : (Formals.ofNames [p]).parameters.map Parameter.name = [p] := rfl
  rw [Scope.candidates, Scope.behind, List.flatMap_cons, List.flatMap_map, visible]
  simp only [hone, List.flatMap_singleton']

/-- An attribute that is not defined is the part where it is found, or is found in one of the parts that this is made
of. -/
theorem lacks_or_piece : (s : Spot) → f ∈ s.findings d formals → f.problem.kind = .noSuchAttribute →
    (∃ name, s.Lacks formals name f) ∨
      ∃ n ∈ pieces s.node, f ∈ (Spot.mk (inside s.around s.node) n).findings d formals
  | ⟨around, .expr mapped (.attribute name span)⟩, h, _ => by
      simp only [findings, Expr.findings] at h
      split at h
      · cases h
      · rename_i hout
        rw [Scope.behind_accepts, not_or] at hout
        rw [List.mem_singleton.mp h]
        have hvisible := candidates_behind d formals ⟨around, .expr mapped (.attribute name span)⟩
        exact .inl ⟨name, ⟨mapped, rfl⟩, hout, congrArg (Problem.noSuchAttribute name) hvisible⟩
  | ⟨_, .expr _ (.literal _ _)⟩, h, _ | ⟨_, .expr _ (.truth _ _)⟩, h, _ => by cases h
  | ⟨_, .expr _ (.list items _)⟩, h, _ => by
      obtain ⟨e, he, hf⟩ := Expr.mem_findingsAll h
      exact .inr ⟨_, List.mem_map_of_mem he, hf⟩
  | ⟨_, .expr _ (.property _ _ _)⟩, h, _ | ⟨_, .expr _ (.rendered _ _)⟩, h, _
  | ⟨_, .expr _ (.builtin _ _ _)⟩, h, _ => .inr ⟨_, List.mem_cons_self, h⟩
  | ⟨_, .expr _ (.propertyAt _ _ _)⟩, h, _ => by
      rcases List.mem_append.mp h with h | h
      · exact .inr ⟨_, List.mem_cons_self, h⟩
      · exact .inr ⟨_, List.mem_cons_of_mem _ List.mem_cons_self, h⟩
  | ⟨_, .expr _ (.call _ arguments _)⟩, h, hk => by
      rcases List.mem_append.mp h with h | h
      · exact absurd hk (callFindings_kind h)
      · obtain ⟨e, he, hf⟩ := Arguments.mem_findings h hk
        exact .inr ⟨_, List.mem_map_of_mem he, hf⟩
  | ⟨_, .expr mapped (.callComputed name arguments span)⟩, h, hk => by
      rcases List.mem_append.mp h with h | h
      · rcases List.mem_append.mp h with h | h
        · rcases List.mem_singleton.mp (List.mem_ite_nil_right.mp h).2 with rfl
          cases hk
        · exact .inr ⟨_, List.mem_cons_self, h⟩
      · obtain ⟨e, he, hf⟩ := Arguments.mem_findings h hk
        exact .inr ⟨_, List.mem_cons_of_mem _ (List.mem_map_of_mem he), hf⟩
  | ⟨around, .expr _ (.anonymous parameter body _)⟩, h, _ => by
      obtain ⟨e, he, hf⟩ := Element.mem_findingsAll h
      rw [Scope.behind_enter] at hf
      exact .inr ⟨_, List.mem_map_of_mem he, hf⟩
  | ⟨_, .expr _ (.map _ templates _)⟩, h, _ => by
      rcases List.mem_append.mp h with h | h
      · exact .inr ⟨_, List.mem_cons_self, h⟩
      · obtain ⟨e, he, hf⟩ := Expr.mem_findingsAll h
        exact .inr ⟨_, List.mem_cons_of_mem _ (List.mem_map_of_mem he), hf⟩
  | ⟨_, .condition (.value _)⟩, h, _ | ⟨_, .condition (.not _)⟩, h, _ => .inr ⟨_, List.mem_cons_self, h⟩
  | ⟨_, .condition (.and _ _)⟩, h, _ | ⟨_, .condition (.or _ _)⟩, h, _ => by
      rcases List.mem_append.mp h with h | h
      · exact .inr ⟨_, List.mem_cons_self, h⟩
      · exact .inr ⟨_, List.mem_cons_of_mem _ List.mem_cons_self, h⟩
  | ⟨_, .element (.text _)⟩, h, _ => by cases h
  | ⟨around, .element (.tag value options _)⟩, h, hk => by
      have hoption (wanted : String) (h : f ∈ TagOption.valueFindings (.behind d formals around) wanted options) :
          ∃ n ∈ Node.expr false value :: options.map (fun o => .expr false o.value),
            f ∈ (Spot.mk around n).findings d formals := by
        obtain ⟨o, ho, hf⟩ := TagOption.mem_valueFindings h
        exact ⟨_, List.mem_cons_of_mem _ (List.mem_map_of_mem ho), hf⟩
      simp only [findings, Element.findings, List.mem_append] at h
      rcases h with (((h | h) | h) | h) | h
      · exact .inr ⟨_, List.mem_cons_self, h⟩
      · exact absurd hk (TagOption.nameFindings_kind h)
      all_goals exact .inr (hoption _ h)
  | ⟨around, .element (.choice branches otherwise)⟩, h, _ => by
      have hbranch (h : f ∈ Branch.findingsAll (.behind d formals around) branches) :
          ∃ n ∈ branches.flatMap fun b => Node.condition b.condition :: b.body.map .element,
            f ∈ (Spot.mk around n).findings d formals := by
        obtain ⟨b, hb, h | ⟨e, he, hf⟩⟩ := Branch.mem_findingsAll h
        · exact ⟨_, List.mem_flatMap.mpr ⟨b, hb, List.mem_cons_self⟩, h⟩
        · exact ⟨_, List.mem_flatMap.mpr ⟨b, hb, List.mem_cons_of_mem _ (List.mem_map_of_mem he)⟩, hf⟩
      cases otherwise with
      | none =>
        simp only [findings, Element.findings, List.append_nil] at h
        obtain ⟨n, hn, hf⟩ := hbranch h
        exact .inr ⟨n, List.mem_append_left _ hn, hf⟩
      | some body =>
        simp only [findings, Element.findings, List.mem_append] at h
        rcases h with h | h
        · obtain ⟨n, hn, hf⟩ := hbranch h
          exact .inr ⟨n, List.mem_append_left _ hn, hf⟩
        · obtain ⟨e, he, hf⟩ := Element.mem_findingsAll h
          exact .inr ⟨_, List.mem_append_right _ (List.mem_map_of_mem he), hf⟩

/-- An attribute that is found undefined in a part of a template is somewhere in it. -/
theorem exists_lacks (s : Spot) (h : f ∈ s.findings d formals) (hk : f.problem.kind = .noSuchAttribute) :
    ∃ q name, s.Contains q ∧ q.Lacks formals name f := by
  have hereditary : Hereditary fun s => f ∈ s.findings d formals → ∃ q name, s.Contains q ∧ q.Lacks formals name f := by
    intro s ih h
    rcases s.lacks_or_piece h hk with ⟨name, hl⟩ | ⟨n, hn, hf⟩
    · exact ⟨s, name, .self s, hl⟩
    · obtain ⟨q, name, hq, hl⟩ := ih n hn hf
      exact ⟨q, name, .part (List.mem_map_of_mem hn) hq, hl⟩
  exact hereditary.all s h

end Spot

namespace Compilation

/-- The parts of what is compiled: those of the body and of the defaults. -/
inductive Has (c : Compilation) (s : Spot) : Prop where
  | body {body : List Element} {e : Element} (read : Element.readAll c.source = .ok body) (mem : e ∈ body)
      (within : Spot.Contains ⟨[], .element e⟩ s)
  | default {parameter : String} {e : Expr} (read : (parameter, .ok e) ∈ c.formals.readDefaults)
      (within : Spot.Contains ⟨[], .expr false e⟩ s)

/-- What a compilation says of an attribute that is not defined: its name, and the names that are suggested of the parameters
that are in scope where it stands. -/
structure Suggests (c : Compilation) (x : Diagnostic) (s : Spot) (name : String) : Prop where
  has : c.Has s
  lacks : ∃ f, s.Lacks c.formals name f
  arguments : x.arguments = [name, didYouMean (nearby name (s.visible c.formals))]

theorem suggests {c : Compilation} {x : Diagnostic} (h : x ∈ c.found) (hk : x.kind = .noSuchAttribute) :
    ∃ s name, c.Suggests x s name := by
  cases finds_of_mem h with
  | unreadable => cases hk
  | unreadableDefault => cases hk
  | inDefault hread hf =>
    obtain ⟨q, name, hq, hl⟩ := Spot.exists_lacks (.mk [] (.expr false _)) hf hk
    exact ⟨q, name, .default hread hq, ⟨_, hl⟩, by rw [hl.problem]; rfl⟩
  | inBody hread hf =>
    obtain ⟨e, he, hf⟩ := Element.mem_findingsAll hf
    obtain ⟨q, name, hq, hl⟩ := Spot.exists_lacks (.mk [] (.element e)) hf hk
    exact ⟨q, name, .body hread he hq, ⟨_, hl⟩, by rw [Finding.diagnostic, hl.problem]; rfl⟩

end Compilation

/-- What is suggested are the first three, or all if they are fewer, of the different names that are close to the target, the
nearest first. What is suggested for an attribute that is not defined are parameters that are in scope where it stands, in
whatever templates without a name that is, and they are different unless a name that is near is in scope twice. -/
theorem suggestions_nearest (target : String) (available : List String) :
    (Suggestible target available → ∀ names, names = nearby target available ↔ Nearest target available names) ∧
    (Nearest target available (nearby target available) ↔
      (nearby target available).Nodup ∧ ∀ name ∈ nearby target available, Close target name) ∧
    ∀ (c : Compilation) (x : Diagnostic), x ∈ c.found → x.kind = .noSuchAttribute → ∃ s name, c.Suggests x s name ∧
      (∀ shown ∈ nearby name (s.visible c.formals), shown ∈ s.visible c.formals) ∧
      ((nearby name (s.visible c.formals)).Nodup ∨
        ∃ other, isNearby name other = true ∧ 1 < (s.visible c.formals).count other) := by
  refine ⟨fun h names => ⟨fun he => he ▸ h.nearest, fun hn => hn.unique h.nearest⟩, nearest_iff target available,
    fun c x hx hk => ?_⟩
  obtain ⟨s, name, hs⟩ := c.suggests hx hk
  refine ⟨s, name, hs, fun shown h => (mem_nearby h).1, ?_⟩
  by_cases hrepeated : ∃ other, isNearby name other = true ∧ 1 < (s.visible c.formals).count other
  · exact .inr hrepeated
  · exact .inl (nearby_nodup fun other hn => Nat.le_of_not_lt fun hlt => hrepeated ⟨other, hn, hlt⟩)

theorem suggestions_nearest_mapped :
    let c : Compilation :=
      ⟨"page", .ofNames ["names", "name"], "<names:{x | <nme>}>", ⟨fun _ => none, fun _ => none, []⟩⟩
    Nearest "nme" ["names", "name", "title"] ["name"] ∧
    ∃ x ∈ c.found, x.kind = .noSuchAttribute ∧ ∃ s name, c.Suggests x s name ∧
      ∀ shown ∈ nearby name (s.visible c.formals), shown ∈ s.visible c.formals := by
  intro c
  have hfits : Suggestible "nme" ["names", "name", "title"] :=
    ⟨by decide, fun name _ => List.nodup_iff_count_le_one.mp (by decide) name⟩
  have hfound : c.found.map Diagnostic.kind = [.noSuchAttribute] := by decide +kernel
  obtain ⟨x, hx, hk⟩ := List.mem_map.mp (hfound ▸ List.mem_cons_self)
  obtain ⟨hnames, -, hattributes⟩ := suggestions_nearest "nme" ["names", "name", "title"]
  obtain ⟨s, name, hs, hmem, -⟩ := hattributes c x hx hk
  exact ⟨(hnames hfits _).mp (by decide +kernel), x, hx, hk, s, name, hs, hmem⟩

end Stencil
