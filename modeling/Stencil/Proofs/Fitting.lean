import Stencil.Program.Compile
/-! Trees whose calls fit a directory: they name templates that are there and pass what these take. -/

namespace Stencil

mutual

/-- Whether no call computes the name of its template. -/
def Expr.isDirect : Expr → Bool
  | .attribute _ _ | .literal _ _ | .truth _ _ => true
  | .list items _ => Expr.areDirect items
  | .property target _ _ => target.isDirect
  | .propertyAt target key _ => target.isDirect && key.isDirect
  | .call _ arguments _ => arguments.isDirect
  | .callComputed _ _ _ => false
  | .rendered value _ => value.isDirect
  | .builtin _ argument _ => argument.isDirect
  | .anonymous _ body _ => Element.areDirect body
  | .map target templates _ => target.isDirect && Expr.areDirect templates

def Expr.areDirect : List Expr → Bool
  | [] => true
  | e :: rest => e.isDirect && Expr.areDirect rest

def Arguments.isDirect : Arguments → Bool
  | .positional values => Expr.areDirect values
  | .named values => NamedArgument.areDirect values

def NamedArgument.areDirect : List NamedArgument → Bool
  | [] => true
  | ⟨_, value, _⟩ :: rest => value.isDirect && NamedArgument.areDirect rest

def TagOption.areDirect : List TagOption → Bool
  | [] => true
  | ⟨_, value, _⟩ :: rest => value.isDirect && TagOption.areDirect rest

def Condition.isDirect : Condition → Bool
  | .value e => e.isDirect
  | .not c => c.isDirect
  | .and a b | .or a b => a.isDirect && b.isDirect

def Element.isDirect : Element → Bool
  | .text _ => true
  | .tag value options _ => value.isDirect && TagOption.areDirect options
  | .choice branches none => Branch.areDirect branches
  | .choice branches (some body) => Branch.areDirect branches && Element.areDirect body

def Element.areDirect : List Element → Bool
  | [] => true
  | e :: rest => e.isDirect && Element.areDirect rest

def Branch.areDirect : List Branch → Bool
  | [] => true
  | ⟨condition, body, _⟩ :: rest =>
    condition.isDirect && Element.areDirect body && Branch.areDirect rest

end

/-- Whether no call in a template computes the name of its template. -/
def Template.isDirect (t : Template) : Bool :=
  (t.defaults.all fun d => d.2.isDirect) && Element.areDirect t.body

/-- Templates with these parameters take the arguments. -/
def Arguments.Suit (formals : Formals) : Arguments → Prop
  | .positional values => values.length ≤ formals.size
  | .named values => ∀ a ∈ values, formals.accepts a.name = true

/-- A template to map has a parameter for the elements. -/
def Expr.Receives (d : Directory) : Expr → Prop
  | .call callee _ _ => ∀ formals, d.find? callee = some formals → formals.receiver?.isSome = true
  | _ => True

mutual

/-- The calls in an expression fit a directory. Inner templates have regions as `P` says. -/
def Expr.Fits (d : Directory) (P : Span → Prop) : Expr → Prop
  | .attribute _ _ | .literal _ _ | .truth _ _ => True
  | .list items _ => Expr.FitAll d P items
  | .property target _ _ => target.Fits d P
  | .propertyAt target key _ => target.Fits d P ∧ key.Fits d P
  | .call callee arguments _ =>
    arguments.Fits d P ∧ ∃ formals, d.find? callee = some formals ∧ arguments.Suit formals
  | .callComputed _ _ _ => False
  | .rendered value _ => value.Fits d P
  | .builtin _ argument _ => argument.Fits d P
  | .anonymous _ body _ => Element.ProperAll P body ∧ Element.FitAll d P body
  | .map target templates _ =>
    target.Fits d P ∧ Expr.FitAll d P templates ∧ (∀ e ∈ templates, e.IsTemplate ∧ e.Receives d)

def Expr.FitAll (d : Directory) (P : Span → Prop) : List Expr → Prop
  | [] => True
  | e :: rest => e.Fits d P ∧ Expr.FitAll d P rest

def Arguments.Fits (d : Directory) (P : Span → Prop) : Arguments → Prop
  | .positional values => Expr.FitAll d P values
  | .named values => NamedArgument.FitAll d P values

def NamedArgument.FitAll (d : Directory) (P : Span → Prop) : List NamedArgument → Prop
  | [] => True
  | ⟨_, value, _⟩ :: rest => value.Fits d P ∧ NamedArgument.FitAll d P rest

def TagOption.Fits (d : Directory) (P : Span → Prop) (wanted : String) : List TagOption → Prop
  | [] => True
  | ⟨name, value, _⟩ :: rest =>
    (name == wanted) = true ∧ value.Fits d P ∨ (name == wanted) = false ∧ TagOption.Fits d P wanted rest

def Condition.Fits (d : Directory) (P : Span → Prop) : Condition → Prop
  | .value e => e.Fits d P
  | .not c => c.Fits d P
  | .and a b | .or a b => a.Fits d P ∧ b.Fits d P

def Element.Fits (d : Directory) (P : Span → Prop) : Element → Prop
  | .text _ => True
  | .tag value options _ =>
    value.Fits d P ∧ TagOption.Fits d P "separator" options ∧ TagOption.Fits d P "format" options ∧
      TagOption.Fits d P "null" options
  | .choice branches none => Branch.FitAll d P branches
  | .choice branches (some body) => Branch.FitAll d P branches ∧ Element.FitAll d P body

def Element.FitAll (d : Directory) (P : Span → Prop) : List Element → Prop
  | [] => True
  | e :: rest => e.Fits d P ∧ Element.FitAll d P rest

def Branch.FitAll (d : Directory) (P : Span → Prop) : List Branch → Prop
  | [] => True
  | ⟨condition, body, _⟩ :: rest =>
    condition.Fits d P ∧ Element.FitAll d P body ∧ Branch.FitAll d P rest

end

/-- The calls in a template fit a directory. -/
structure Template.Fits (d : Directory) (t : Template) : Prop where
  proper : t.Proper
  defaults : ∀ e ∈ t.defaults, ∃ P, e.2.Fits d P
  body : ∃ P, t.origin.Allows P ∧ Element.FitAll d P t.body

/-! ## Checked templates -/

variable {s : Scope} {P : Span → Prop}

/-- A call in which nothing was found is of a template that takes what is passed. -/
theorem callFindings_nil {d : Directory} {mapped : Bool} {callee : Callee} {arguments : Arguments}
    {span : Span} (h : callFindings d mapped callee arguments span = []) :
    ∃ formals, d.find? callee = some formals ∧
      (∀ values, arguments = .positional values → values.length ≤ formals.size) ∧
      (mapped = true → formals.receiver?.isSome = true) := by
  unfold callFindings at h
  cases hd : d.find? callee with
  | none =>
    rw [hd] at h
    cases h
  | some formals =>
    rw [hd] at h
    cases mapped with
    | false =>
      refine ⟨formals, rfl, fun values hv => Nat.not_lt.mp fun hlt => ?_, nofun⟩
      subst hv
      dsimp only at h
      rw [if_neg Bool.false_ne_true, if_pos hlt] at h
      cases h
    | true =>
      obtain ⟨hpassed, hreceiver⟩ := List.append_eq_nil_iff.mp h
      refine ⟨formals, rfl, fun values hv => Nat.not_lt.mp fun hlt => ?_, fun _ => ?_⟩
      · subst hv
        dsimp only at hpassed
        rw [if_neg (Nat.ne_of_gt (Nat.zero_lt_of_lt hlt))] at hpassed
        cases hpassed
      · cases formals with
        | any => rfl
        | declared ps =>
          cases ps with
          | nil => cases hreceiver
          | cons p ps => rfl

theorem namedFindings_nil {formals : Formals} {template : String} : {seen : List String} →
    {as : List NamedArgument} → NamedArgument.findingsAll s (some (template, formals)) seen as = [] →
    ∀ a ∈ as, formals.accepts a.name = true
  | _, [], _ => List.forall_mem_nil _
  | seen, ⟨name, value, span⟩ :: rest, h => by
      rw [NamedArgument.findingsAll, List.append_eq_nil_iff, List.append_eq_nil_iff] at h
      refine List.forall_mem_cons.mpr ⟨?_, namedFindings_nil h.2⟩
      have hn := h.1.1
      split at hn
      · cases hn
      · split at hn
        · assumption
        · cases hn

/-- What stands as a template to map, and in which nothing was found, can be mapped. -/
theorem Expr.receives_of_findings : {e : Expr} → e.findings s true = [] → e.Receives s.directory
  | .call _ _ _, h => by
      rw [Expr.findings, List.append_eq_nil_iff] at h
      obtain ⟨formals, hd, -, hr⟩ := callFindings_nil h.1
      intro formals' hd'
      cases hd.symm.trans hd'
      exact hr rfl
  | .attribute _ _, _ | .literal _ _, _ | .truth _ _, _ | .list _ _, _ | .property _ _ _, _
  | .propertyAt _ _ _, _ | .callComputed _ _ _, _ | .rendered _ _, _ | .builtin _ _ _, _
  | .anonymous _ _ _, _ | .map _ _ _, _ => trivial

theorem Expr.findings_of_mem {mapped : Bool} : {es : List Expr} →
    Expr.findingsAll s mapped es = [] → ∀ e ∈ es, e.findings s mapped = []
  | [], _ => List.forall_mem_nil _
  | e :: rest, h => by
      rw [Expr.findingsAll, List.append_eq_nil_iff] at h
      exact List.forall_mem_cons.mpr ⟨h.1, findings_of_mem h.2⟩

mutual

/-- If nothing was found in an expression and it is direct, its calls fit. -/
theorem Expr.fits (s : Scope) (mapped : Bool) : (e : Expr) → e.findings s mapped = [] → e.isDirect = true →
    e.Proper P → e.Fits s.directory P
  | .attribute _ _, _, _, _ | .literal _ _, _, _, _ | .truth _ _, _, _, _ => trivial
  | .list items _, h, hd, hp => Expr.fitAll s _ items h hd hp.1
  | .property target _ _, h, hd, hp => target.fits s _ h hd hp.1
  | .propertyAt target key _, h, hd, hp => by
      obtain ⟨ht, hk⟩ := List.append_eq_nil_iff.mp h
      obtain ⟨hdt, hdk⟩ := Bool.and_eq_true_iff.mp hd
      exact ⟨target.fits s _ ht hdt hp.1, key.fits s _ hk hdk hp.2.1⟩
  | .call callee arguments _, h, hd, hp => by
      obtain ⟨hc, ha⟩ := List.append_eq_nil_iff.mp h
      obtain ⟨formals, hf, hsuit, -⟩ := callFindings_nil hc
      rw [hf] at ha
      refine ⟨arguments.fits s _ ha hd hp.1, formals, hf, ?_⟩
      cases arguments with
      | positional values => exact hsuit values rfl
      | named values => exact namedFindings_nil ha
  | .callComputed _ _ _, _, hd, _ => by cases hd
  | .rendered value _, h, hd, hp => value.fits s _ h hd hp.1
  | .builtin _ argument _, h, hd, hp => argument.fits s _ h hd hp.1
  | .anonymous _ body _, h, hd, hp => ⟨hp.1, Element.fitAll (s.enter _) body h hd hp.1⟩
  | .map target templates _, h, hd, hp => by
      obtain ⟨ht, hts⟩ := List.append_eq_nil_iff.mp h
      obtain ⟨hdt, hdts⟩ := Bool.and_eq_true_iff.mp hd
      refine ⟨target.fits s _ ht hdt hp.1, Expr.fitAll s _ templates hts hdts hp.2.1, fun e he => ?_⟩
      exact ⟨hp.2.2.1 e he, Expr.receives_of_findings (Expr.findings_of_mem hts e he)⟩

theorem Expr.fitAll (s : Scope) (mapped : Bool) : (es : List Expr) → Expr.findingsAll s mapped es = [] →
    Expr.areDirect es = true → Expr.ProperAll P es → Expr.FitAll s.directory P es
  | [], _, _, _ => trivial
  | e :: rest, h, hd, hp => by
      obtain ⟨he, hr⟩ := List.append_eq_nil_iff.mp h
      obtain ⟨hde, hdr⟩ := Bool.and_eq_true_iff.mp hd
      exact ⟨e.fits s _ he hde hp.1, Expr.fitAll s _ rest hr hdr hp.2⟩

theorem Arguments.fits (s : Scope) (callee : Option (String × Formals)) : (as : Arguments) →
    as.findings s callee = [] → as.isDirect = true → as.Proper P → as.Fits s.directory P
  | .positional values, h, hd, hp => Expr.fitAll s _ values h hd hp
  | .named values, h, hd, hp => NamedArgument.fitAll s _ _ values h hd hp

theorem NamedArgument.fitAll (s : Scope) (callee : Option (String × Formals)) (seen : List String) :
    (as : List NamedArgument) → NamedArgument.findingsAll s callee seen as = [] →
    NamedArgument.areDirect as = true → NamedArgument.ProperAll P as →
    NamedArgument.FitAll s.directory P as
  | [], _, _, _ => trivial
  | ⟨name, value, span⟩ :: rest, h, hd, hp => by
      obtain ⟨h, hr⟩ := List.append_eq_nil_iff.mp h
      obtain ⟨-, hv⟩ := List.append_eq_nil_iff.mp h
      obtain ⟨hdv, hdr⟩ := Bool.and_eq_true_iff.mp hd
      exact ⟨value.fits s _ hv hdv hp.1, NamedArgument.fitAll s _ _ rest hr hdr hp.2.2.1⟩

theorem TagOption.fits (s : Scope) (wanted : String) : (os : List TagOption) →
    TagOption.valueFindings s wanted os = [] → TagOption.areDirect os = true →
    TagOption.ProperAll P os → TagOption.Fits s.directory P wanted os
  | [], _, _, _ => trivial
  | ⟨name, value, _⟩ :: rest, h, hd, hp => by
      obtain ⟨hdv, hdr⟩ := Bool.and_eq_true_iff.mp hd
      rw [TagOption.valueFindings] at h
      cases hn : name == wanted with
      | true =>
        rw [hn, if_pos rfl] at h
        exact .inl ⟨hn, value.fits s _ h hdv hp.1⟩
      | false =>
        rw [hn, if_neg Bool.false_ne_true] at h
        exact .inr ⟨hn, TagOption.fits s wanted rest h hdr hp.2.2.1⟩

theorem Condition.fits (s : Scope) : (c : Condition) → c.findings s = [] → c.isDirect = true →
    c.Proper P → c.Fits s.directory P
  | .value e, h, hd, hp => e.fits s _ h hd hp
  | .not c, h, hd, hp => c.fits s h hd hp
  | .and a b, h, hd, hp | .or a b, h, hd, hp => by
      obtain ⟨ha, hb⟩ := List.append_eq_nil_iff.mp h
      obtain ⟨hda, hdb⟩ := Bool.and_eq_true_iff.mp hd
      exact ⟨a.fits s ha hda hp.1, b.fits s hb hdb hp.2⟩

theorem Element.fits (s : Scope) : (e : Element) → e.findings s = [] → e.isDirect = true →
    e.Proper P → e.Fits s.directory P
  | .text _, _, _, _ => trivial
  | .tag value options _, h, hd, hp => by
      simp only [Element.findings, List.append_eq_nil_iff] at h
      obtain ⟨⟨⟨⟨hv, -⟩, hs⟩, hf⟩, hn⟩ := h
      obtain ⟨hdv, hdo⟩ := Bool.and_eq_true_iff.mp hd
      exact ⟨value.fits s _ hv hdv hp.1, TagOption.fits s _ options hs hdo hp.2.1,
        TagOption.fits s _ options hf hdo hp.2.1, TagOption.fits s _ options hn hdo hp.2.1⟩
  | .choice branches none, h, hd, hp => Branch.fitAll s branches (List.append_eq_nil_iff.mp h).1 hd hp.1
  | .choice branches (some body), h, hd, hp => by
      obtain ⟨hb, he⟩ := List.append_eq_nil_iff.mp h
      obtain ⟨hdb, hde⟩ := Bool.and_eq_true_iff.mp hd
      exact ⟨Branch.fitAll s branches hb hdb hp.1, Element.fitAll s body he hde hp.2⟩

theorem Element.fitAll (s : Scope) : (es : List Element) → Element.findingsAll s es = [] →
    Element.areDirect es = true → Element.ProperAll P es → Element.FitAll s.directory P es
  | [], _, _, _ => trivial
  | e :: rest, h, hd, hp => by
      obtain ⟨he, hr⟩ := List.append_eq_nil_iff.mp h
      obtain ⟨hde, hdr⟩ := Bool.and_eq_true_iff.mp hd
      exact ⟨e.fits s he hde hp.1, Element.fitAll s rest hr hdr hp.2⟩

theorem Branch.fitAll (s : Scope) : (bs : List Branch) → Branch.findingsAll s bs = [] →
    Branch.areDirect bs = true → Branch.ProperAll P bs → Branch.FitAll s.directory P bs
  | [], _, _, _ => trivial
  | ⟨condition, body, _⟩ :: rest, h, hd, hp => by
      simp only [Branch.findingsAll, List.append_eq_nil_iff] at h
      simp only [Branch.areDirect, Bool.and_eq_true] at hd
      exact ⟨condition.fits s h.1.1 hd.1.1 hp.1, Element.fitAll s body h.1.2 hd.1.2 hp.2.1,
        Branch.fitAll s rest h.2 hd.2 hp.2.2.2⟩

end

/-- A direct template in which no problems were found fits. -/
theorem Template.fits {d : Directory} {t : Template} (h : t.problems d = []) (hd : t.isDirect = true)
    (hp : t.Proper) : t.Fits d where
  proper := hp
  defaults e he := by
    obtain ⟨P, hP⟩ := hp.defaults e he
    have hf := List.map_eq_nil_iff.mp (List.flatMap_eq_nil_iff.mp (List.append_eq_nil_iff.mp h).1 e he)
    have hd := List.all_eq_true.mp (Bool.and_eq_true_iff.mp hd).1 e he
    exact ⟨P, e.2.fits ⟨d, [t.formals]⟩ false hf hd hP⟩
  body := by
    obtain ⟨P, hP, hb⟩ := hp.body
    have hf := List.map_eq_nil_iff.mp (List.append_eq_nil_iff.mp h).2
    exact ⟨P, hP, Element.fitAll ⟨d, [t.formals]⟩ t.body hf (Bool.and_eq_true_iff.mp hd).2 hb⟩

/-- A template without a name fits if its body does. -/
theorem Template.Fits.ofAnonymous {d : Directory} {o : Origin} (hP : o.Allows P) (before : Nat)
    (parameter : Option String) {body : List Element} (hp : Element.ProperAll P body)
    (h : Element.FitAll d P body) : (Template.ofAnonymous o before parameter body).Fits d where
  proper := ⟨List.forall_mem_nil _, P, hP, hp⟩
  defaults := List.forall_mem_nil _
  body := ⟨P, hP, h⟩

end Stencil
