import Stencil.Proofs.Compilation
/-! The sites of problems. The text of a diagnostic of the compiler tells which site it is about, as names
have no blanks. -/

namespace Stencil

/-- Where and of what a diagnostic is: its kind, the position in the source and what it is about. -/
structure ProblemSite where
  kind : Kind
  position : Option (Nat × Nat)
  subject : String
deriving DecidableEq, Repr

namespace Diagnostic

/-- The name that offends, or the whole message of a syntax error. -/
def subject (d : Diagnostic) : String :=
  match d.kind with
  | .noSuchFormalArgument | .argumentCountMismatch => d.arguments.getD 1 ""
  | _ => d.arguments.getD 0 ""

def site (d : Diagnostic) : ProblemSite := ⟨d.kind, d.location.map fun l => (l.line, l.column), d.subject⟩

end Diagnostic

/-! ## Names without blanks -/

/-- Text without a blank. -/
def Unspaced (s : String) : Prop := ' ' ∉ s.toList

theorem unspaced_of_isName {s : String} (h : isName s = true) : Unspaced s := by
  unfold isName at h
  intro hm
  split at h
  · rename_i hs
    rw [hs] at hm
    cases hm
  · rename_i c cs hs
    rw [hs] at hm
    obtain ⟨hc, hcs⟩ := Bool.and_eq_true_iff.mp h
    rcases List.mem_cons.mp hm with rfl | hm
    · cases hc
    · cases List.all_eq_true.mp hcs _ hm

theorem Callee.unspaced {callee : Callee} (h : isName callee.name = true) : Unspaced callee.display := by
  unfold Callee.display
  split
  · simpa [Unspaced] using unspaced_of_isName h
  · exact unspaced_of_isName h

/-- The names in a problem have no blanks. -/
def Problem.Unspaced : Problem → Prop
  | .noSuchAttribute name _ => Stencil.Unspaced name
  | .noSuchTemplate callee _ => Stencil.Unspaced callee.display
  | .noSuchParameter template name => Stencil.Unspaced template ∧ Stencil.Unspaced name
  | .tooManyArguments _ template _ => Stencil.Unspaced template
  | .duplicateArgument name _ => Stencil.Unspaced name
  | .noSuchOption name => Stencil.Unspaced name
  | .duplicateOption name => Stencil.Unspaced name
  | .positionalMapArguments template => Stencil.Unspaced template
  | .noReceiver template => Stencil.Unspaced template

/-- Problems whose names have no blanks. -/
def UnspacedAll (fs : List Finding) : Prop := ∀ f ∈ fs, f.problem.Unspaced

namespace UnspacedAll

variable {fs gs : List Finding} {p : Problem} {s : Span}

theorem nil : UnspacedAll [] := nofun

theorem single (h : p.Unspaced) : UnspacedAll [⟨p, s⟩] := List.forall_mem_singleton.mpr h

theorem append (hf : UnspacedAll fs) (hg : UnspacedAll gs) : UnspacedAll (fs ++ gs) :=
  List.forall_mem_append.mpr ⟨hf, hg⟩

theorem ite {c : Prop} [Decidable c] (hf : UnspacedAll fs) (hg : UnspacedAll gs) :
    UnspacedAll (if c then fs else gs) := by
  split
  · exact hf
  · exact hg

end UnspacedAll

open UnspacedAll

theorem callFindings_unspaced (d : Directory) (mapped : Bool) {callee : Callee} (arguments : Arguments) (span : Span)
    (h : isName callee.name = true) : UnspacedAll (callFindings d mapped callee arguments span) := by
  have hname := unspaced_of_isName h
  unfold callFindings
  cases d.find? callee with
  | none => exact single (Callee.unspaced h)
  | some formals => exact ite (append (ite nil (single hname)) (ite nil (single hname))) (ite (single hname) nil)

theorem nameFindings_unspaced {P : Span → Prop} : (seen : List String) → (os : List TagOption) →
    TagOption.ProperAll P os → UnspacedAll (TagOption.nameFindings seen os)
  | _, [], _ => nil
  | seen, ⟨name, _, _⟩ :: rest, h => by
      have hname : Unspaced name := unspaced_of_isName h.2.2.2
      have hrest (seen : List String) := nameFindings_unspaced seen rest h.2.2.1
      rw [TagOption.nameFindings]
      split
      · exact List.forall_mem_cons.mpr ⟨hname, hrest _⟩
      · split
        · exact List.forall_mem_cons.mpr ⟨hname, hrest _⟩
        · exact hrest _

variable {P : Span → Prop}

mutual

/-- The problems of trees that are read have names without blanks. -/
theorem Expr.findings_unspaced (s : Scope) (mapped : Bool) : (e : Expr) → e.Proper P →
    UnspacedAll (e.findings s mapped)
  | .attribute _ _, h => ite nil (single (unspaced_of_isName h.2))
  | .literal _ _, _ | .truth _ _, _ => nil
  | .list items _, h => Expr.findingsAll_unspaced s false items h.1
  | .property target _ _, h => target.findings_unspaced s false h.1
  | .propertyAt target key _, h => append (target.findings_unspaced s false h.1) (key.findings_unspaced s false h.2.1)
  | .call callee arguments span, h => by
      refine append (callFindings_unspaced _ mapped arguments span h.2.2) ?_
      refine arguments.findings_unspaced s _ h.1 fun t ht => ?_
      obtain ⟨f, -, rfl⟩ := Option.map_eq_some_iff.mp ht
      exact unspaced_of_isName h.2.2
  | .callComputed name arguments _, h =>
      append (append (ite (single (by simp [Problem.Unspaced, Unspaced])) nil) (name.findings_unspaced s false h.1))
        (arguments.findings_unspaced s none h.2.1 nofun)
  | .rendered value _, h => value.findings_unspaced s false h.1
  | .builtin _ argument _, h => argument.findings_unspaced s false h.1
  | .anonymous _ body _, h => Element.findingsAll_unspaced _ body h.1
  | .map target templates _, h =>
      append (target.findings_unspaced s false h.1) (Expr.findingsAll_unspaced s true templates h.2.1)

theorem Expr.findingsAll_unspaced (s : Scope) (mapped : Bool) : (es : List Expr) → Expr.ProperAll P es →
    UnspacedAll (Expr.findingsAll s mapped es)
  | [], _ => nil
  | e :: rest, h => append (e.findings_unspaced s mapped h.1) (Expr.findingsAll_unspaced s mapped rest h.2)

theorem Arguments.findings_unspaced (s : Scope) (callee : Option (String × Formals)) : (as : Arguments) →
    as.Proper P → (∀ t, callee = some t → Unspaced t.1) → UnspacedAll (as.findings s callee)
  | .positional values, h, _ => Expr.findingsAll_unspaced s false values h
  | .named values, h, hc => NamedArgument.findingsAll_unspaced s callee [] values h hc

theorem NamedArgument.findingsAll_unspaced (s : Scope) (callee : Option (String × Formals)) (seen : List String) :
    (as : List NamedArgument) → NamedArgument.ProperAll P as → (∀ t, callee = some t → Unspaced t.1) →
    UnspacedAll (NamedArgument.findingsAll s callee seen as)
  | [], _, _ => nil
  | ⟨name, value, span⟩ :: rest, h, hc => by
      have hname := unspaced_of_isName h.2.2.2
      refine append (append (ite (single hname) ?_) (value.findings_unspaced s false h.1))
        (NamedArgument.findingsAll_unspaced s callee _ rest h.2.2.1 hc)
      split
      · exact ite nil (single ⟨hc _ rfl, hname⟩)
      · exact nil

theorem TagOption.valueFindings_unspaced (s : Scope) (wanted : String) : (os : List TagOption) →
    TagOption.ProperAll P os → UnspacedAll (TagOption.valueFindings s wanted os)
  | [], _ => nil
  | ⟨_, value, _⟩ :: rest, h =>
      ite (value.findings_unspaced s false h.1) (TagOption.valueFindings_unspaced s wanted rest h.2.2.1)

theorem Condition.findings_unspaced (s : Scope) : (c : Condition) → c.Proper P → UnspacedAll (c.findings s)
  | .value e, h => e.findings_unspaced s false h
  | .not c, h => c.findings_unspaced s h
  | .and a b, h | .or a b, h => append (a.findings_unspaced s h.1) (b.findings_unspaced s h.2)

theorem Element.findings_unspaced (s : Scope) : (e : Element) → e.Proper P → UnspacedAll (e.findings s)
  | .text _, _ => nil
  | .tag value options _, h => by
      have hvalues (wanted : String) := TagOption.valueFindings_unspaced s wanted options h.2.1
      exact append (append (append (append (value.findings_unspaced s false h.1)
        (nameFindings_unspaced [] options h.2.1)) (hvalues _)) (hvalues _)) (hvalues _)
  | .choice branches none, h => append (Branch.findingsAll_unspaced s branches h.1) nil
  | .choice branches (some body), h =>
      append (Branch.findingsAll_unspaced s branches h.1) (Element.findingsAll_unspaced s body h.2)

theorem Element.findingsAll_unspaced (s : Scope) : (es : List Element) → Element.ProperAll P es →
    UnspacedAll (Element.findingsAll s es)
  | [], _ => nil
  | e :: rest, h => append (e.findings_unspaced s h.1) (Element.findingsAll_unspaced s rest h.2)

theorem Branch.findingsAll_unspaced (s : Scope) : (bs : List Branch) → Branch.ProperAll P bs →
    UnspacedAll (Branch.findingsAll s bs)
  | [], _ => nil
  | ⟨condition, body, _⟩ :: rest, h =>
      append (append (condition.findings_unspaced s h.1) (Element.findingsAll_unspaced s body h.2.1))
        (Branch.findingsAll_unspaced s rest h.2.2.2)

end

/-! ## Texts -/

/-- A word of a text, whose words are parted by blanks. -/
def word : Nat → List Char → List Char
  | 0, cs => cs.takeWhile (· != ' ')
  | n + 1, cs => word n ((cs.dropWhile (· != ' ')).drop 1)

/-- The kind of a problem by the message. -/
def kindOf (message : List Char) : Kind :=
  let first := word 0 message
  if first = "attribute".toList then .noSuchAttribute
  else if first = "no".toList then if word 2 message = "template:".toList then .noSuchTemplate else .noSuchOption
  else if first = "template".toList then .noSuchFormalArgument
  else if first = "passed".toList then .argumentCountMismatch
  else if first = "argument".toList then .duplicateArgument
  else if first = "option".toList then .duplicateOption
  else if first = "arguments".toList then .positionalMapArguments
  else if first = "mapped".toList then .mapTemplateWithoutParameters
  else .syntaxError

/-- What a message is about. -/
def subjectOf (message : List Char) : List Char :=
  match kindOf message with
  | .noSuchAttribute | .duplicateArgument | .duplicateOption => word 1 message
  | .mapTemplateWithoutParameters => word 2 message
  | .noSuchTemplate | .noSuchOption => word 3 message
  | .positionalMapArguments => word 4 message
  | .argumentCountMismatch => word 5 message
  | .noSuchFormalArgument => word 6 message
  | _ => message

/-- A message tells a kind and what it is about. It does not start with a digit, as positions do. -/
def Tells (message : List Char) (kind : Kind) (subject : String) : Prop :=
  kindOf message = kind ∧ subjectOf message = subject.toList ∧ message.takeWhile Char.isDigit = []

theorem takeWhile_unspaced {s : String} (h : Unspaced s) (cs : List Char) :
    (s.toList ++ ' ' :: cs).takeWhile (· != ' ') = s.toList := by
  rw [List.takeWhile_append_of_pos, List.takeWhile_cons_of_neg (by decide), List.append_nil]
  exact fun c hc => bne_iff_ne.mpr fun he => h (he ▸ hc)

theorem dropWhile_unspaced {s : String} (h : Unspaced s) (cs : List Char) :
    (s.toList ++ ' ' :: cs).dropWhile (· != ' ') = ' ' :: cs := by
  rw [List.dropWhile_append_of_pos, List.dropWhile_cons_of_neg (by decide)]
  exact fun c hc => bne_iff_ne.mpr fun he => h (he ▸ hc)

theorem takeWhile_unspaced_end {s : String} (h : Unspaced s) : s.toList.takeWhile (· != ' ') = s.toList := by
  rw [← List.append_nil s.toList, List.takeWhile_append_of_pos, List.takeWhile_nil]
  exact fun c hc => bne_iff_ne.mpr fun he => h (he ▸ hc)

theorem unspaced_toString (n : Nat) : Unspaced (toString n) := by
  intro hm
  rw [Nat.toString_eq_ofList_toDigits, String.toList_ofList] at hm
  cases Nat.isDigit_of_mem_toDigits (by decide) (by decide) hm

theorem didYouMean_cases : (names : List String) →
    didYouMean names = "" ∨ ∃ cs, (didYouMean names).toList = ' ' :: cs
  | [] => .inl rfl
  | name :: names => .inr ⟨_, by simp [didYouMean]; rfl⟩

theorem Problem.message_eq (p : Problem) (template : String) :
    (p.diagnostic template).message.toList = Diagnostic.fill p.arguments p.kind.pattern.toList := by
  have htake : p.arguments.take Diagnostic.argumentLimit = p.arguments := by cases p <;> rfl
  rw [Diagnostic.message, String.toList_ofList]
  exact congrArg (Diagnostic.fill · p.kind.pattern.toList) htake

/-- The name that offends. -/
def Problem.subject : Problem → String
  | .noSuchAttribute name _ | .noSuchParameter _ name | .duplicateArgument name _ | .noSuchOption name
  | .duplicateOption name => name
  | .noSuchTemplate callee _ => callee.display
  | .tooManyArguments _ template _ | .positionalMapArguments template | .noReceiver template => template

theorem Problem.diagnostic_subject (p : Problem) (template : String) :
    (p.diagnostic template).subject = p.subject := by
  cases p <;> rfl

/-- The message of a problem tells its kind and what it is about. -/
theorem Problem.message_tells (p : Problem) (hp : p.Unspaced) (template : String) :
    Tells (p.diagnostic template).message.toList p.kind p.subject := by
  rw [p.message_eq, Tells]
  cases p with
  | noSuchAttribute name candidates =>
    have hn := takeWhile_unspaced hp
    simp [subjectOf, kindOf, word, Diagnostic.fill, arguments, Kind.pattern, kind, subject, hn]
  | noSuchTemplate callee candidates =>
    have hn := takeWhile_unspaced hp
    have hend := takeWhile_unspaced_end hp
    rcases didYouMean_cases (nearby callee.name candidates) with he | ⟨cs, he⟩
    · simp [subjectOf, kindOf, word, Diagnostic.fill, arguments, Kind.pattern, kind, subject, hend, he]
    · simp [subjectOf, kindOf, word, Diagnostic.fill, arguments, Kind.pattern, kind, subject, hn, he]
  | noSuchParameter t name =>
    have hd := dropWhile_unspaced hp.1
    have hn := takeWhile_unspaced_end hp.2
    simp [subjectOf, kindOf, word, Diagnostic.fill, arguments, Kind.pattern, kind, subject, hn, hd]
  | tooManyArguments passed t declared =>
    have hn := takeWhile_unspaced hp
    have hpassed := unspaced_toString passed
    rw [arguments]
    generalize toString passed = count at hpassed
    have hd := dropWhile_unspaced hpassed
    simp [subjectOf, kindOf, word, Diagnostic.fill, Kind.pattern, kind, subject, hn, hd]
  | duplicateArgument name t =>
    have hn := takeWhile_unspaced hp
    simp [subjectOf, kindOf, word, Diagnostic.fill, arguments, Kind.pattern, kind, subject, hn]
  | noSuchOption name =>
    have hn := takeWhile_unspaced_end hp
    simp [subjectOf, kindOf, word, Diagnostic.fill, arguments, Kind.pattern, kind, subject, hn]
  | duplicateOption name =>
    have hn := takeWhile_unspaced hp
    simp [subjectOf, kindOf, word, Diagnostic.fill, arguments, Kind.pattern, kind, subject, hn]
  | positionalMapArguments t =>
    have hn := takeWhile_unspaced hp
    simp [subjectOf, kindOf, word, Diagnostic.fill, arguments, Kind.pattern, kind, subject, hn]
  | noReceiver t =>
    have hn := takeWhile_unspaced hp
    simp [subjectOf, kindOf, word, Diagnostic.fill, arguments, Kind.pattern, kind, subject, hn]

/-- Messages that start with another letter than those of problems are of syntax errors. -/
theorem Tells.syntaxError {c : Char} {cs : List Char} {s : String} (hs : s.toList = c :: cs)
    (hc : c ∉ ['a', 'n', 't', 'p', 'o', 'm', ' ']) (hd : c.isDigit = false) : Tells s.toList .syntaxError s := by
  have hkind : kindOf (c :: cs) = .syntaxError := by
    simp only [List.mem_cons, List.not_mem_nil, or_false, not_or] at hc
    simp [kindOf, word, hc]
  have hdigit : (c :: cs).takeWhile Char.isDigit = [] := by
    rw [List.takeWhile_cons, hd]
    rfl
  rw [hs]
  exact ⟨hkind, by rw [subjectOf, hkind, hs], hdigit⟩

theorem toList_append_cons {s : String} {c : Char} {cs : List Char} (h : s.toList = c :: cs) (t : String) :
    (s ++ t).toList = c :: (cs ++ t.toList) := by
  rw [String.toList_append, h, List.cons_append]

theorem Fault.message_tells (f : Fault) : Tells f.message.toList .syntaxError f.message := by
  cases f with
  | expected token => exact .syntaxError (toList_append_cons rfl _) (by decide) (by decide)
  | unexpected c => exact .syntaxError (toList_append_cons (toList_append_cons rfl _) _) (by decide) (by decide)
  | strayBranchTag =>
    exact .syntaxError (toList_append_cons (toList_append_cons (toList_append_cons rfl _) _) _) (by decide) (by decide)
  | _ => exact .syntaxError rfl (by decide) (by decide)

/-- The text of a diagnostic of the compiler behind the name of the template. -/
theorem Compilation.Finds.display_eq {c : Compilation} {d : Diagnostic} (h : c.Finds d) : d.display.toList =
    c.name.toList ++ ' ' :: (((d.location.map fun l => l.display ++ ": ").getD "").toList ++ d.message.toList) := by
  have hcauses : d.causes = [] := by cases h <;> rfl
  rw [Diagnostic.display, Diagnostic.heading, h.phase, h.template, hcauses]
  simp

/-- The message of a diagnostic of the compiler tells its kind and what it is about. -/
theorem Compilation.Finds.message_tells {c : Compilation} {d : Diagnostic} (h : c.Finds d) :
    Tells d.message.toList d.kind d.subject := by
  have hsyntax {message : String} (hm : Tells message.toList .syntaxError message) :
      Tells (Diagnostic.compiling .syntaxError c.name [message]).message.toList .syntaxError message := by
    simpa [Diagnostic.message, Diagnostic.compiling, Diagnostic.withArguments, Diagnostic.argumentLimit, Kind.pattern,
      Diagnostic.fill] using hm
  have hproblem {p : Problem} (hp : p.Unspaced) :
      Tells (p.diagnostic c.name).message.toList p.kind (p.diagnostic c.name).subject := by
    rw [p.diagnostic_subject]
    exact p.message_tells hp c.name
  cases h with
  | @unreadable e _ => exact hsyntax e.fault.message_tells
  | @unreadableDefault parameter e _ =>
    have hstart : "default value of ".toList = 'd' :: "efault value of ".toList := rfl
    have htext := toList_append_cons (toList_append_cons (toList_append_cons hstart parameter) ": ") e.message
    exact hsyntax (.syntaxError htext (by decide) (by decide))
  | inDefault h hf =>
    obtain ⟨p, -, hp⟩ := List.mem_filterMap.mp h
    obtain ⟨text, -, hread⟩ := Option.map_eq_some_iff.mp hp
    exact hproblem (Expr.findings_unspaced _ _ _ (.ofRead (Prod.mk.inj hread).2) _ hf)
  | inBody h hf => exact hproblem (Element.findingsAll_unspaced _ _ (.ofRead h) _ hf)

/-! ## Sites of texts -/

/-- The site that a text is about. -/
def siteOf (text : List Char) : ProblemSite :=
  let line := text.takeWhile Char.isDigit
  if line = [] then ⟨kindOf text, none, String.ofList (subjectOf text)⟩
  else
    let rest := (text.dropWhile Char.isDigit).drop 1
    let message := (rest.dropWhile Char.isDigit).drop 2
    ⟨kindOf message, some (Nat.ofDigitChars 10 line 0, Nat.ofDigitChars 10 (rest.takeWhile Char.isDigit) 0),
      String.ofList (subjectOf message)⟩

theorem takeWhile_toDigits (n : Nat) {x : Char} (hx : x.isDigit = false) (cs : List Char) :
    (Nat.toDigits 10 n ++ x :: cs).takeWhile Char.isDigit = Nat.toDigits 10 n := by
  rw [List.takeWhile_append_of_pos, List.takeWhile_cons_of_neg (hx ▸ Bool.false_ne_true), List.append_nil]
  exact fun c hc => Nat.isDigit_of_mem_toDigits (by decide) (by decide) hc

theorem dropWhile_toDigits (n : Nat) {x : Char} (hx : x.isDigit = false) (cs : List Char) :
    (Nat.toDigits 10 n ++ x :: cs).dropWhile Char.isDigit = x :: cs := by
  rw [List.dropWhile_append_of_pos, List.dropWhile_cons_of_neg (hx ▸ Bool.false_ne_true)]
  exact fun c hc => Nat.isDigit_of_mem_toDigits (by decide) (by decide) hc

theorem Location.display_eq (l : Location) (cs : List Char) : (l.display ++ ": ").toList ++ cs =
    Nat.toDigits 10 l.line ++ ':' :: (Nat.toDigits 10 l.column ++ ':' :: ' ' :: cs) := by
  have hcolon : (toString ":").toList = [':'] := rfl
  simp [display, hcolon]

theorem Compilation.Finds.siteOf_eq {c : Compilation} {d : Diagnostic} (h : c.Finds d) : d.site =
    siteOf (((d.location.map fun l => l.display ++ ": ").getD "").toList ++ d.message.toList) := by
  obtain ⟨hkind, hsubject, hdigit⟩ := h.message_tells
  unfold Diagnostic.site siteOf
  cases d.location with
  | none => simp [hkind, hsubject, hdigit]
  | some l =>
    simp only [Option.map_some, Option.getD_some]
    rw [l.display_eq, takeWhile_toDigits _ rfl, dropWhile_toDigits _ rfl, if_neg Nat.toDigits_ne_nil]
    simp only [List.drop_succ_cons, List.drop_zero]
    rw [takeWhile_toDigits _ rfl, dropWhile_toDigits _ rfl, Nat.ofDigitChars_toDigits (by decide) (by decide),
      Nat.ofDigitChars_toDigits (by decide) (by decide)]
    simp [hkind, hsubject]

/-- What is found of a template and has the same text is at the same site. -/
theorem Compilation.Finds.site_eq {c c' : Compilation} {d d' : Diagnostic} (h : c.Finds d) (h' : c'.Finds d')
    (hname : c.name = c'.name) (hd : d.display = d'.display) : d.site = d'.site := by
  have htext := congrArg String.toList hd
  rw [h.display_eq, h'.display_eq, hname] at htext
  have htext := List.append_cancel_left htext
  rw [h.siteOf_eq, h'.siteOf_eq, List.tail_eq_of_cons_eq htext]

end Stencil
