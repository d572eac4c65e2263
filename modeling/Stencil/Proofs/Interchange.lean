import Mathlib.Data.List.Perm.Basic
import Stencil.Proofs.Constructs
import Stencil.Proofs.Evenly
/-! What is passed in order and what is passed by name come to the same. Expressions only read, so each comes to the
same value whichever are evaluated before it, and a call fails in both forms if any of its arguments does. -/

namespace Stencil

open Rendering

/-! ## All values, or none -/

section

variable {α β : Type} {f : α → Option β} {as as' : List α}

/-- Values of elements that are in another order are in another order. -/
theorem mapM_perm (h : as.Perm as') : Option.Rel List.Perm (as.mapM f) (as'.mapM f) := by
  induction h with
  | nil => exact .some (.refl _)
  | @cons a as as' _ ih =>
    rw [List.mapM_cons, List.mapM_cons]
    generalize as.mapM f = o, as'.mapM f = o' at ih
    cases f a with
    | none => exact .none
    | some b =>
      cases ih with
      | none => exact .none
      | some h => exact .some (h.cons b)
  | swap a a' as =>
    rw [List.mapM_cons, List.mapM_cons, List.mapM_cons, List.mapM_cons]
    cases f a with
    | none => cases f a' <;> exact .none
    | some b =>
      cases f a' with
      | none => exact .none
      | some b' =>
        cases as.mapM f with
        | none => exact .none
        | some bs => exact .some (.swap b b' bs)
  | @trans as as' as'' _ _ ih ih' =>
    generalize as.mapM f = o, as'.mapM f = o', as''.mapM f = o'' at ih ih'
    cases ih with
    | none => exact ih'
    | some h =>
      cases ih' with
      | some h' => exact .some (h.trans h')

theorem mapM_zip : {names : List String} → {vs : List (Option α)} → vs.length ≤ names.length →
    ((names.zip vs).mapM fun e => e.2.map (e.1, ·)) = (vs.mapM id).map names.zip
  | _, [], _ => by
      rw [List.zip_nil_right]
      exact congrArg some List.zip_nil_right.symm
  | name :: names, v :: vs, h => by
      rw [List.zip_cons_cons, List.mapM_cons, List.mapM_cons, mapM_zip (Nat.le_of_succ_le_succ h)]
      cases v with
      | none => rfl
      | some a =>
        cases vs.mapM id with
        | none => rfl
        | some as => rfl

theorem mapM_rel {R : α → β → Prop} {vs : List (Option α)} {vs' : List (Option β)}
    (h : List.Forall₂ (Option.Rel R) vs vs') :
    Option.Rel (fun us us' => List.Forall₂ R us us' ∧ us.length = vs.length) (vs.mapM id) (vs'.mapM id) := by
  induction h with
  | nil => exact .some ⟨.nil, rfl⟩
  | @cons v v' vs vs' hv _ ih =>
    rw [List.mapM_cons, List.mapM_cons]
    generalize vs.mapM id = o, vs'.mapM id = o' at ih
    cases hv with
    | none => exact .none
    | some hv =>
      cases ih with
      | none => exact .none
      | some h => exact .some ⟨.cons hv h.1, congrArg (· + 1) h.2⟩

end

/-- What goes with what is zipped in another order, in the same order. -/
theorem zip_perm_forall₂ {α β : Type} {R : α → β → Prop} {names names' : List String} {as as' : List α} {bs' : List β}
    (hp : (names'.zip as').Perm (names.zip as)) (hl : as.length ≤ names.length) (h : List.Forall₂ R as' bs') :
    ∃ bs, List.Forall₂ R as bs ∧ (names'.zip bs').Perm (names.zip bs) := by
  have hzip : List.Forall₂ (fun e e' => e.1 = e'.1 ∧ R e.2 e'.2) (names'.zip as') (names'.zip bs') := by
    clear hp
    induction h generalizing names' with
    | nil => simp
    | cons hr _ ih =>
      cases names' with
      | nil => exact .nil
      | cons name names' => exact .cons ⟨rfl, hr⟩ ih
  have hunzip {es : List (String × β)} (h : List.Forall₂ (fun e e' => e.1 = e'.1 ∧ R e.2 e'.2) (names.zip as) es) :
      ∃ bs, List.Forall₂ R as bs ∧ es = names.zip bs := by
    clear hp
    induction as generalizing names es with
    | nil =>
      rw [List.zip_nil_right] at h
      cases h
      exact ⟨[], .nil, List.zip_nil_right.symm⟩
    | cons a as ih =>
      cases names with
      | nil => cases hl
      | cons name names =>
        cases h with
        | @cons _ e _ _ he hes =>
          obtain ⟨key, b⟩ := e
          obtain ⟨rfl, hr⟩ : name = key ∧ R a b := he
          obtain ⟨bs, hbs, rfl⟩ := ih (Nat.le_of_succ_le_succ hl) hes
          exact ⟨b :: bs, .cons hr hbs, rfl⟩
  obtain ⟨es, hes, hperm⟩ := List.perm_comp_forall₂ hp.symm hzip
  obtain ⟨bs, hbs, rfl⟩ := hunzip hes
  exact ⟨bs, hbs, hperm.symm⟩

/-- What is passed by names, in any order, is passed alike in order, unless some value is missing in both forms. -/
theorem Passed.Alike.byName_rel {R : Instance → Instance → Prop} {names names' : List String}
    {vs ws vs' : List (Option Value)} (h : List.Forall₂ (Option.Rel (Value.Alike R)) vs ws)
    (hperm : (names'.zip vs').Perm (names.zip ws)) (hfit : vs.length ≤ names.length)
    (hfit' : vs'.length ≤ names'.length) : Option.Rel (Passed.Alike R (some names))
      ((vs.mapM id).map .positional) ((vs'.mapM id).map fun us => .named (names'.zip us)) := by
  have hall := mapM_perm (f := fun e => e.2.map (e.1, ·)) hperm
  have hrel := mapM_rel h
  rw [mapM_zip hfit', mapM_zip (h.length_eq ▸ hfit)] at hall
  generalize vs.mapM id = a, vs'.mapM id = b, ws.mapM id = c at hall hrel
  cases hrel with
  | none =>
    cases b with
    | none => exact .none
    | some us => cases hall
  | some hus =>
    cases b with
    | none => cases hall
    | some us =>
      cases hall with
      | some hperm => exact .some (.byName rfl (Nat.le_trans (Nat.le_of_eq hus.2) hfit) (.of_forall₂ hus.1) hperm)

/-! ## What expressions come to -/

/-- Values that are passed by name are evaluated as values are that are passed in order. -/
theorem NamedArgument.evalAll_eq (r : Reading) (settings : Settings) (env : Env) (o : Origin) (n : Nat)
    (as : List NamedArgument) : NamedArgument.evalAll r settings env o n as =
      (as.map name).zip <$> Expr.evalAll r settings env o n (as.map value) := by
  induction as generalizing n with
  | nil => rfl
  | cons a as ih =>
    obtain ⟨name, value, s⟩ := a
    rw [NamedArgument.evalAll, ih, List.map_cons, List.map_cons, Expr.evalAll, map_bind]
    refine bind_congr fun v => ?_
    rw [map_bind, bind_map_left]
    exact bind_congr fun vs => (map_pure _ _).symm

namespace Standpoint

variable (S : Standpoint) (r : Reading) (o : Origin)

/-- An expression has a value here, or none, if some templates without a name have started before it. -/
def Yields (e : Expr) (v : Option Value) : Prop := ∃ n, S.Does (e.eval r S.settings S.env o n).run v []

variable {S r o}

/-- Expressions have values if each has one. -/
theorem evalAll {es : List Expr} (h : ∀ e ∈ es, ∀ n, ∃ v, S.Does (e.eval r S.settings S.env o n).run v []) (n : Nat) :
    ∃ vs, List.Forall₂ (S.Yields r o) es vs ∧
      S.Does (Expr.evalAll r S.settings S.env o n es).run (vs.mapM id) [] := by
  induction es generalizing n with
  | nil => exact ⟨[], .nil, .pure _⟩
  | cons e es ih =>
    obtain ⟨he, hes⟩ := List.forall_mem_cons.mp h
    obtain ⟨v, hv⟩ := he n
    obtain ⟨vs, hvs, hrest⟩ := ih hes (n + e.started)
    refine ⟨v :: vs, .cons ⟨n, hv⟩ hvs, ?_⟩
    rw [List.mapM_cons]
    cases v with
    | none => exact .bind hv (.pure none)
    | some v =>
      refine .bind hv (.bind hrest ?_)
      cases vs.mapM id with
      | none => exact .pure none
      | some vs => exact .pure (some (v :: vs))

end Standpoint

namespace Edition.Stage

variable {E : Edition} (T : E.Stage) (r r' : Reading) (o o' : Origin)

/-- Expressions come to alike values, whatever has started before them. -/
abbrev Evenly (e e' : Expr) : Prop := ∀ n n', T.Attempted (Value.Alike T.Bare) (e.eval r E.settings T.env o n)
  (e'.eval r' E.settings' T.env' o' n')

variable {T r r' o o'} {e e' : Expr} {es es' : List Expr}

theorem Evenly.left (h : T.Evenly r r' o o' e e') (n : Nat) :
    ∃ v, T.left.Does (e.eval r E.settings T.env o n).run v [] := by
  obtain ⟨v, _, _, -, hv, -⟩ := h n 0
  exact ⟨v, hv.aside (Expr.eval_aside n e)⟩

theorem Evenly.right (h : T.Evenly r r' o o' e e') (n : Nat) :
    ∃ v, T.right.Does (e'.eval r' E.settings' T.env' o' n).run v [] := by
  obtain ⟨_, v, _, -, -, hv⟩ := h 0 n
  exact ⟨v, hv.aside (Expr.eval_aside n e')⟩

theorem Evenly.alike (h : T.Evenly r r' o o' e e') {v v' : Option Value} (hv : T.left.Yields r o e v)
    (hv' : T.right.Yields r' o' e' v') : Option.Rel (Value.Alike T.Bare) v v' := by
  obtain ⟨n, hv⟩ := hv
  obtain ⟨n', hv'⟩ := hv'
  obtain ⟨u, u', _, hu, hx, hy⟩ := h n n'
  obtain ⟨hm, hm'⟩ := T.lined.stands
  cases hv.unique hm hx
  cases hv'.unique hm' hy
  exact hu

theorem evalAll_evenly (h : List.Forall₂ (T.Evenly r r' o o') es es') (n n' : Nat) :
    T.Attempted (Items.Alike T.Bare) (Expr.evalAll r E.settings T.env o n es)
      (Expr.evalAll r' E.settings' T.env' o' n' es') := by
  induction h generalizing n n' with
  | nil => exact .pure .nil
  | cons he _ ih => exact .bind (he _ _) fun _ _ hv => .bind (ih _ _) fun _ _ hvs => .pure (.cons hv hvs)

theorem yields_alike (h : List.Forall₂ (T.Evenly r r' o o') es es') {vs vs' : List (Option Value)}
    (hvs : List.Forall₂ (T.left.Yields r o) es vs) (hvs' : List.Forall₂ (T.right.Yields r' o') es' vs') :
    List.Forall₂ (Option.Rel (Value.Alike T.Bare)) vs vs' := by
  induction h generalizing vs vs' with
  | nil =>
    cases hvs
    cases hvs'
    exact .nil
  | cons he _ ih =>
    cases hvs with
    | cons hv hvs =>
      cases hvs' with
      | cons hv' hvs' => exact .cons (he.alike hv hv') (ih hvs hvs')

/-- What a call passes in order comes to the same as what it passes by names, in any order. -/
theorem byName_evenly (h : List.Forall₂ (T.Evenly r r' o o') es es') {names : List String} {as : List NamedArgument}
    (ha : NamedArgument.Assign names es' as) (n n' : Nat) : T.Attempted (Passed.Alike T.Bare (some names))
      ((Arguments.positional es).eval r E.settings T.env o n)
      ((Arguments.named as).eval r' E.settings' T.env' o' n') := by
  have hleft := ((List.forall₂_and_left _ _).mp (h.imp fun _ _ he => ⟨he.left, he⟩)).1
  have hback : List.Forall₂ (fun e' e => T.Evenly r r' o o' e e') es' es := h.flip
  have hright := ((List.forall₂_and_left _ _).mp (hback.imp fun _ _ he => ⟨Evenly.right he, he⟩)).1
  obtain ⟨vs, hvs, hx⟩ := Standpoint.evalAll (S := T.left) hleft n
  obtain ⟨vs', hvs', hy⟩ := Standpoint.evalAll (S := T.right) (fun e he => hright e (ha.values.subset he)) n'
  have hperm := ha.2
  rw [← List.zip_map'] at hperm
  obtain ⟨ws, hws, hzip⟩ := zip_perm_forall₂ hperm ha.1 hvs'
  have hfit : vs.length ≤ names.length := by
    rw [← hvs.length_eq, h.length_eq]
    exact ha.1
  have hfit' : vs'.length ≤ (as.map NamedArgument.name).length := by
    rw [← hvs'.length_eq, List.length_map, List.length_map]
  refine ⟨(vs.mapM id).map .positional, (vs'.mapM id).map fun us => .named ((as.map NamedArgument.name).zip us), [],
    Passed.Alike.byName_rel (yields_alike h hvs hws) hzip hfit hfit', ?_, ?_⟩
  · rw [Arguments.eval]
    refine .bind hx ?_
    cases vs.mapM id <;> exact .pure _
  · rw [Arguments.eval, NamedArgument.evalAll_eq, bind_map_left]
    refine .bind hy ?_
    cases vs'.mapM id <;> exact .pure _

/-- By which names the instances that run may pass arguments. -/
abbrev naming (T : E.Stage) : Naming := E.settings.group.naming T.env.here.bound.native

end Edition.Stage

/-! ## Trees in other words -/

theorem Template.Gives.ofAnonymous (r : Reading) {o : Origin} {P : Span → Prop} (ho : o.Allows P) (n : Nat)
    (parameter : Option String) {body : List Element} (h : Element.ProperAll P body) :
    (Template.ofAnonymous o n parameter body).Gives (r.program (.ofAnonymous o n parameter body)) := by
  have hproper : (Template.ofAnonymous o n parameter body).Proper := ⟨List.forall_mem_nil _, P, ho, h⟩
  exact ⟨hproper, (r.program_code _ hproper).symm, by rintro ⟨⟩⟩

/-- Of the options of a name, only the first one is evaluated. -/
theorem TagOption.eval_eq_first (r : Reading) (settings : Settings) (env : Env) (o : Origin) (n : Nat) (wanted : String)
    (os : List TagOption) : TagOption.eval r settings env o n wanted os =
      (os.find? fun option => option.name == wanted).mapM fun option => option.value.eval r settings env o n := by
  induction os with
  | nil => rfl
  | cons option os ih =>
    obtain ⟨name, value, s⟩ := option
    rw [TagOption.eval, List.find?_cons]
    cases hn : name == wanted with
    | true => exact bind_pure_comp _ _
    | false => exact ih

section

variable {E : Edition} {T : E.Stage} {r r' : Reading} {o o' : Origin} {P P' : Span → Prop}

mutual

/-- Expressions in other words come to alike values. -/
theorem Expr.Rephrased.eval (ho : o.Allows P) (ho' : o'.Allows P') :
    {mapped : Bool} → {e e' : Expr} → e.Rephrased T.naming mapped e' → e.Proper P → e'.Proper P' →
    T.Evenly r r' o o' e e'
  | _, _, _, .attribute name _ _, _, _, _, _ => by
      rw [Expr.eval, Expr.eval]
      exact .lift (T.readAttribute name)
  | _, _, _, .literal text _ _, _, _, _, _ => by
      rw [Expr.eval, Expr.eval]
      exact .pure (.text text)
  | _, _, _, .truth b _ _, _, _, _, _ => by
      rw [Expr.eval, Expr.eval]
      exact .pure (.bool b)
  | _, _, _, .list _ _ h, hp, hp', _, _ => by
      rw [Expr.eval, Expr.eval]
      exact .bind (Edition.Stage.evalAll_evenly (h.eval ho ho' hp.1.mem hp'.1.mem) _ _) fun _ _ hvs => .pure (.list hvs)
  | _, _, _, .property name s s' h, hp, hp', _, _ => by
      rw [Expr.eval, Expr.eval]
      exact .bind (h.eval ho ho' hp.1 hp'.1 _ _) fun _ _ hv =>
        .lift ((T.atPlace (o.place s) (o'.place s')).readProperty hv name)
  | _, _, _, .propertyAt s s' h hk, hp, hp', _, _ => by
      rw [Expr.eval, Expr.eval]
      exact .bind (h.eval ho ho' hp.1 hp'.1 _ _) fun _ _ hv => .bind (hk.eval ho ho' hp.2.1 hp'.2.1 _ _) fun _ _ hkey =>
        .lift ((T.atPlace (o.place s) (o'.place s')).readPropertyAt hv hkey)
  | _, _, _, .call callee s s' h, hp, hp', _, _ => by
      rw [Expr.eval, Expr.eval]
      exact .bind (h.eval ho ho' hp.1 hp'.1 _ _) fun _ _ hpassed =>
        .bind ((T.atPlace (o.place s) (o'.place s')).instantiate callee hpassed (by rintro _ ⟨⟩)) fun _ _ hi =>
          .pure (.template hi)
  | _, _, _, .byName s s' hn h ha, hp, hp', _, _ => by
      have hvalues := h.eval ho ho' (Expr.ProperAll.mem hp.1) fun e he => by
        obtain ⟨a, ham, rfl⟩ := List.mem_map.mp (ha.values.symm.subset he)
        exact (NamedArgument.ProperAll.mem hp'.1 a ham).1
      rw [Expr.eval, Expr.eval]
      exact .bind (Edition.Stage.byName_evenly hvalues ha _ _) fun _ _ hpassed =>
        .bind ((T.atPlace (o.place s) (o'.place s')).instantiate _ hpassed (by rintro _ ⟨⟩; exact hn)) fun _ _ hi =>
          .pure (.template hi)
  | _, _, _, @Expr.Rephrased.callComputed _ _ name name' _ _ s s' h has, hp, hp', _, _ => by
      rw [Expr.eval, Expr.eval]
      refine .bind (h.eval ho ho' hp.1 hp'.1 _ _) fun _ _ hv =>
        .bind (.lift ((T.atPlace (o.place name.span) (o'.place name'.span)).renderEarly hv)) fun text _ ht => ?_
      subst ht
      exact .bind (has.eval ho ho' hp.2.1 hp'.2.1 _ _) fun _ _ hpassed =>
        .bind ((T.atPlace (o.place s) (o'.place s')).instantiateComputed text hpassed) fun _ _ hi =>
          .pure (.template hi)
  | _, _, _, .rendered s s' h, hp, hp', _, _ => by
      rw [Expr.eval, Expr.eval]
      refine .bind (h.eval ho ho' hp.1 hp'.1 _ _) fun _ _ hv =>
        .bind (.lift ((T.atPlace (o.place s) (o'.place s')).renderEarly hv)) fun text _ ht => ?_
      subst ht
      exact .pure (.text text)
  | _, _, _, .builtin function s s' h, hp, hp', _, _ => by
      rw [Expr.eval, Expr.eval]
      exact .bind (h.eval ho ho' hp.1 hp'.1 _ _) fun _ _ hv =>
        .lift ((T.atPlace (o.place s) (o'.place s')).bonds.applyBuiltin function hv)
  | _, _, _, .anonymous parameter _ _ h, hp, hp', n, n' => by
      rw [Expr.eval, Expr.eval]
      exact .pure (.template (T.enclosed_alike
        ⟨_, _, .ofAnonymous r ho n parameter hp.1, .ofAnonymous r' ho' n' parameter hp'.1, .refl _, .nil, h⟩))
  | _, _, _, .map s s' h hes, hp, hp', _, _ => by
      rw [Expr.eval, Expr.eval]
      exact .bind (h.eval ho ho' hp.1 hp'.1 _ _) fun _ _ hv =>
        .bind (Edition.Stage.evalAll_evenly (hes.eval ho ho' hp.2.1.mem hp'.2.1.mem) _ _) fun _ _ hts =>
          .lift ((T.atPlace (o.place s) (o'.place s')).mapValue hts.templates hv)

theorem Expr.RephrasedAll.eval (ho : o.Allows P) (ho' : o'.Allows P') :
    {mapped : Bool} → {es es' : List Expr} → Expr.RephrasedAll T.naming mapped es es' →
    (∀ e ∈ es, e.Proper P) → (∀ e ∈ es', e.Proper P') → List.Forall₂ (T.Evenly r r' o o') es es'
  | _, _, _, .nil, _, _ => .nil
  | _, _, _, .cons h hes, hp, hp' => by
      obtain ⟨he, hps⟩ := List.forall_mem_cons.mp hp
      obtain ⟨he', hps'⟩ := List.forall_mem_cons.mp hp'
      exact .cons (h.eval ho ho' he he') (hes.eval ho ho' hps hps')

theorem Arguments.Rephrased.eval (ho : o.Allows P) (ho' : o'.Allows P') :
    {as as' : Arguments} → as.Rephrased T.naming as' → as.Proper P → as'.Proper P' →
    ∀ n n', T.Attempted (Passed.Alike T.Bare none) (as.eval r E.settings T.env o n)
      (as'.eval r' E.settings' T.env' o' n')
  | _, _, .positional h, hp, hp', _, _ => by
      rw [Arguments.eval, Arguments.eval]
      exact .bind (Edition.Stage.evalAll_evenly (h.eval ho ho' (Expr.ProperAll.mem hp) (Expr.ProperAll.mem hp')) _ _)
        fun _ _ hvs => .pure (.positional hvs)
  | _, _, .named h, hp, hp', _, _ => by
      rw [Arguments.eval, Arguments.eval]
      exact .bind (h.eval ho ho' hp hp' _ _) fun _ _ hes => .pure (.named hes)

theorem NamedArgument.RephrasedAll.eval (ho : o.Allows P) (ho' : o'.Allows P') :
    {as as' : List NamedArgument} → NamedArgument.RephrasedAll T.naming as as' →
    NamedArgument.ProperAll P as → NamedArgument.ProperAll P' as' → ∀ n n', T.Attempted (Entries.Alike T.Bare)
      (NamedArgument.evalAll r E.settings T.env o n as) (NamedArgument.evalAll r' E.settings' T.env' o' n' as')
  | _, _, .nil, _, _, _, _ => by
      rw [NamedArgument.evalAll, NamedArgument.evalAll]
      exact .pure .nil
  | _, _, .cons name _ _ h has, hp, hp', _, _ => by
      rw [NamedArgument.evalAll, NamedArgument.evalAll]
      exact .bind (h.eval ho ho' hp.1 hp'.1 _ _) fun _ _ hv =>
        .bind (has.eval ho ho' hp.2.2.1 hp'.2.2.1 _ _) fun _ _ hes => .pure (.cons name hv hes)

theorem TagOption.RephrasedAll.eval (ho : o.Allows P) (ho' : o'.Allows P') (wanted : String) :
    {os os' : List TagOption} →
    TagOption.RephrasedAll T.naming os os' → (∀ option ∈ os, option.value.Proper P) →
    (∀ option ∈ os', option.value.Proper P') → ∀ n n', T.Attempted (Option.Rel (Value.Alike T.Bare))
      (TagOption.eval r E.settings T.env o n wanted os) (TagOption.eval r' E.settings' T.env' o' n' wanted os')
  | _, _, .nil, _, _, _, _ => by
      rw [TagOption.eval, TagOption.eval]
      exact .pure .none
  | _, _, .cons name _ _ h hos, hp, hp', _, _ => by
      obtain ⟨he, hps⟩ := List.forall_mem_cons.mp hp
      obtain ⟨he', hps'⟩ := List.forall_mem_cons.mp hp'
      rw [TagOption.eval, TagOption.eval]
      split
      · exact .bind (h.eval ho ho' he he' _ _) fun _ _ hv => .pure (.some hv)
      · exact hos.eval ho ho' wanted hps hps' _ _

theorem Condition.Rephrased.eval (ho : o.Allows P) (ho' : o'.Allows P') :
    {c c' : Condition} → c.Rephrased T.naming c' → c.Proper P → c'.Proper P' →
    ∀ n n', T.Attempted Eq (c.eval r E.settings T.env o n) (c'.eval r' E.settings' T.env' o' n')
  | _, _, .value h, hp, hp', _, _ => by
      rw [Condition.eval, Condition.eval]
      exact .bind (h.eval ho ho' hp hp' _ _) fun _ _ hv => .pure hv.isTruthy_eq
  | _, _, .not h, hp, hp', _, _ => by
      rw [Condition.eval, Condition.eval]
      exact .bind (h.eval ho ho' hp hp' _ _) fun _ _ hb => .pure (congrArg _ hb)
  | _, _, .and h h', hp, hp', _, _ | _, _, .or h h', hp, hp', _, _ => by
      rw [Condition.eval, Condition.eval]
      exact .bind (h.eval ho ho' hp.1 hp'.1 _ _) fun _ _ ha => .bind (h'.eval ho ho' hp.2 hp'.2 _ _) fun _ _ hb =>
        .pure (by rw [ha, hb])

theorem Element.Rephrased.eval (ho : o.Allows P) (ho' : o'.Allows P') :
    {e e' : Element} → e.Rephrased T.naming e' → e.Proper P → e'.Proper P' →
    ∀ n n', T.Attempted (fun _ _ => True) (e.eval r E.settings T.env o n) (e'.eval r' E.settings' T.env' o' n')
  | _, _, .text s, _, _, _, _ => by
      rw [Element.eval, Element.eval]
      exact .lift ((T.atPlace o.unplaced o'.unplaced).writeText s)
  | _, _, .tag s s' h hos hr, hp, hp', _, _ => by
      have hoption (wanted : String) (n n' : Nat) := hos.eval ho ho' wanted
        (fun option ho => (TagOption.ProperAll.mem hp.2.1 option ho).1)
        (fun option ho => (TagOption.ProperAll.mem hp'.2.1 option (hr.perm.subset ho)).1) n n'
      simp only [TagOption.eval_eq_first r', hr.find?_eq] at hoption
      simp only [← TagOption.eval_eq_first r'] at hoption
      rw [Element.eval, Element.eval]
      refine .bind (h.eval ho ho' hp.1 hp'.1 _ _) fun _ _ hv => .bind (hoption _ _ _) fun _ _ hsep =>
        .bind (hoption _ _ _) fun _ _ hformat => .bind (hoption _ _ _) fun _ _ hnull =>
          .bind (.lift ((T.atPlace (o.place s) (o'.place s')).bonds.renderOptions hsep hformat hnull))
            fun set _ hset => ?_
      subst hset
      exact .lift ((T.atPlace (o.place s) (o'.place s')).writeExpression set hv)
  | _, _, .choice hbs, hp, hp', _, _ => by
      rw [Element.eval, Element.eval]
      exact hbs.eval ho ho' hp.1 hp'.1 (.pure trivial) _ _
  | _, _, .choiceElse hbs hes, hp, hp', _, _ => by
      rw [Element.eval, Element.eval]
      exact hbs.eval ho ho' hp.1 hp'.1 (hes.eval ho ho' hp.2 hp'.2 _ _) _ _

theorem Element.RephrasedAll.eval (ho : o.Allows P) (ho' : o'.Allows P') :
    {es es' : List Element} → Element.RephrasedAll T.naming es es' →
    Element.ProperAll P es → Element.ProperAll P' es' → ∀ n n', T.Attempted (fun _ _ => True)
      (Element.evalAll r E.settings T.env o n es) (Element.evalAll r' E.settings' T.env' o' n' es')
  | _, _, .nil, _, _, _, _ => by
      rw [Element.evalAll, Element.evalAll]
      exact .pure trivial
  | _, _, .cons h hes, hp, hp', _, _ => by
      rw [Element.evalAll, Element.evalAll]
      exact .bind (h.eval ho ho' hp.1 hp'.1 _ _) fun _ _ _ => hes.eval ho ho' hp.2 hp'.2 _ _

theorem Branch.RephrasedAll.eval (ho : o.Allows P) (ho' : o'.Allows P') {x y : Attempt Unit} :
    {bs bs' : List Branch} → Branch.RephrasedAll T.naming bs bs' →
    Branch.ProperAll P bs → Branch.ProperAll P' bs' → T.Attempted (fun _ _ => True) x y → ∀ n n',
    T.Attempted (fun _ _ => True) (Branch.evalFirst r E.settings T.env o n x bs)
      (Branch.evalFirst r' E.settings' T.env' o' n' y bs')
  | _, _, .nil, _, _, hx, _, _ => by
      rw [Branch.evalFirst, Branch.evalFirst]
      exact hx
  | _, _, .cons _ _ hc hes hbs, hp, hp', hx, _, _ => by
      rw [Branch.evalFirst, Branch.evalFirst]
      refine .bind (hc.eval ho ho' hp.1 hp'.1 _ _) fun b _ hb => ?_
      subst hb
      split
      · exact hes.eval ho ho' hp.2.1 hp'.2.1 _ _
      · exact hbs.eval ho ho' hp.2.2.2 hp'.2.2.2 hx _ _

end

end

end Stencil
