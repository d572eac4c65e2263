import Stencil.Proofs.Bodies
/-! Whatever is printed is read again: every tree that can be written is read from its text, up to places. -/

namespace Stencil

open Reader

mutual

theorem Expr.reads (alone : Bool) : (e : Expr) → e.Writable alone → e.Reads alone
  | .attribute name span, ⟨hname, ht, hf⟩ =>
    .name hname [] nofun (List.append_nil _).symm (.attribute hname ht hf span)
  | .literal text span, _ => .sign (x := '"') rfl (by decide) rfl (.literal text span)
  | .truth b span, _ => by
    cases b with
    | true => exact .name (s := "true") (by decide) [] nofun rfl (.truth true span)
    | false => exact .name (s := "false") (by decide) [] nofun rfl (.truth false span)
  | .list items span, h => .sign (x := '[') rfl (by decide) rfl (.list (Expr.readsAll items h) span)
  | .property target name span, ⟨h, ht, hname⟩ => (target.reads alone h).property ht hname span
  | .propertyAt target key span, ⟨h, ht, hkey⟩ =>
    (target.reads alone h).propertyAt ht (key.reads true hkey) span
  | .call ⟨name, inherited⟩ arguments span, ⟨hname, hf, ha⟩ => by
    have ha := arguments.reads ha
    obtain ⟨as, has⟩ := Arguments.print_eq arguments
    cases inherited with
    | true =>
      exact .name (s := "super") (by decide) _ (fun x hx => by cases hx; exact .inr (.inl rfl))
        (Expr.print_inherited name arguments span) (.inherited hname ha span)
    | false =>
      exact .name hname arguments.print (fun x hx => by rw [has] at hx; cases hx; exact .inl rfl) rfl
        (.call hname (hf rfl) ha span)
  | .callComputed name arguments span, ⟨hname, ha⟩ => (name.reads true hname).callComputed (arguments.reads ha) span
  | .rendered value span, h => (value.reads true h).rendered span
  | .builtin function argument span, h => by
    have ha := argument.reads true h
    exact .name (by cases function <;> decide) _ (fun x hx => by cases hx; exact .inl rfl) rfl
      (.builtin function ha.spells ha.starts span)
  | .anonymous parameter body span, ⟨hp, hb⟩ =>
    .sign (x := '\x7b') rfl (by decide) rfl (.anonymous hp (Element.readsAll body hb) span)
  | .map target templates span, ⟨h, hts, hne, hone⟩ =>
    (target.reads alone h).map (Expr.readsTemplates templates hts) hne hone span

theorem Expr.readsAll : (es : List Expr) → Expr.WritableAll es → ReadsItems es
  | [], _ => nofun
  | e :: rest, ⟨he, hrest⟩ => by
    have h := e.reads false he
    exact List.forall_mem_cons.mpr ⟨⟨h.starts, h.spells⟩, Expr.readsAll rest hrest⟩

theorem Expr.readsTemplate : (e : Expr) → e.Mappable → Starts e.print ∧ SpellsTemplate e.print e
  | .call ⟨name, inherited⟩ arguments span, ⟨hname, ha⟩ => by
    have ha := arguments.reads ha
    obtain ⟨as, has⟩ := Arguments.print_eq arguments
    cases inherited with
    | true =>
      exact ⟨Starts.name (s := "super") (by decide) (fun x hx => by cases hx; exact .inr (.inl rfl)),
        .inherited hname ha span⟩
    | false =>
      exact ⟨Starts.name hname (fun x hx => by rw [has] at hx; cases hx; exact .inl rfl), .call hname ha span⟩
  | .callComputed name arguments span, ⟨hname, ha⟩ => by
    have h := name.reads true hname
    exact ⟨.sign rfl _, .callComputed h.spells h.starts (arguments.reads ha) span⟩
  | .anonymous parameter body span, ⟨hp, hb⟩ =>
    ⟨.sign rfl _, .anonymous hp (Element.readsAll body hb) span⟩

theorem Expr.readsTemplates : (es : List Expr) → Expr.MappableAll es → ReadsTemplates es
  | [], _ => nofun
  | e :: rest, ⟨he, hrest⟩ => List.forall_mem_cons.mpr ⟨e.readsTemplate he, Expr.readsTemplates rest hrest⟩

theorem Arguments.reads : (a : Arguments) → a.Writable → SpellsArguments a
  | .positional values, h => arguments_positional (Expr.readsAll values h)
  | .named values, ⟨hne, h⟩ => arguments_named (NamedArgument.readsAll values h) hne

theorem NamedArgument.readsAll : (as : List NamedArgument) → NamedArgument.WritableAll as → ReadsNamed as
  | [], _ => nofun
  | ⟨_, value, _⟩ :: rest, ⟨hname, hv, hrest⟩ => by
    have h := value.reads false hv
    exact List.forall_mem_cons.mpr ⟨⟨hname, h.starts, h.spells⟩, NamedArgument.readsAll rest hrest⟩

theorem TagOption.readsAll : (os : List TagOption) → TagOption.WritableAll os → ReadsOptions os
  | [], _ => nofun
  | ⟨_, value, _⟩ :: rest, ⟨hname, hv, hrest⟩ => by
    have h := value.reads false hv
    exact List.forall_mem_cons.mpr ⟨⟨hname, h.starts, h.spells⟩, TagOption.readsAll rest hrest⟩

theorem Condition.reads : (t : Condition) → t.Writable → t.Reads
  | .value e, ⟨he, hr⟩ => .value (e.reads true he) hr
  | .not t, h => (t.reads h).not
  | .and t u, ⟨ht, hu⟩ => (t.reads ht).and (u.reads hu)
  | .or t u, ⟨ht, hu⟩ => (t.reads ht).or (u.reads hu)

theorem Element.reads : (e : Element) → e.Writable → ¬ e.IsText → ReadsElement e
  | .text _, _, ht => absurd trivial ht
  | .tag value options span, ⟨hv, ho⟩, _ =>
    readsElement_tag (value.reads true hv) (TagOption.readsAll options ho) span
  | .choice branches none, ⟨hne, hb, _⟩, _ => readsElement_choice hne (Branch.readsAll branches hb) nofun
  | .choice branches (some body), ⟨hne, hb, ho⟩, _ =>
    readsElement_choice hne (Branch.readsAll branches hb) fun es hes => by
      cases hes
      exact Element.readsAll body ho

theorem Element.readsAll : (es : List Element) → Element.WritableAll es → ReadsElements es
  | [], _ => .nil
  | e :: rest, ⟨he, hrest, hnext⟩ => by
    have hreads := e.reads he
    have hrest := Element.readsAll rest hrest
    cases e with
    | text s => exact .text he (hnext trivial) hrest
    | tag value options span => exact .cons nofun (hreads nofun) hrest
    | choice branches otherwise => exact .cons nofun (hreads nofun) hrest

theorem Branch.readsAll : (bs : List Branch) → Branch.WritableAll bs → ∀ b ∈ bs, ReadsBranch b
  | [], _ => nofun
  | ⟨condition, body, _⟩ :: rest, ⟨hc, hb, hrest⟩ =>
    List.forall_mem_cons.mpr ⟨⟨condition.reads hc, Element.readsAll body hb⟩, Branch.readsAll rest hrest⟩

end

/-- A reader that takes the whole of a source gives what it read. -/
theorem Reader.run_takes {α : Type} {reader : Nat → Reader α} {cs : List Char} {P : α → Prop}
    (h : Takes (reader (16 * (cs.length + 1))) cs [] P) : ∃ a, run reader (String.ofList cs) = .ok a ∧ P a := by
  obtain ⟨a, stop, hr, ha⟩ := h 0
  refine ⟨a, ?_, ha⟩
  unfold run
  simp only [String.toList_ofList, hr]

theorem Element.readAll_printAll {body : List Element} (h : Element.WritableAll body) :
    ∃ read, Element.readAll (String.ofList (Element.printAll body)) = .ok read ∧
      Element.unplacedAll read = Element.unplacedAll body := by
  have hbody := (Element.readsAll body h).body (n := 16 * ((Element.printAll body).length + 1)) (by omega)
    (.source rfl)
  rw [List.append_nil] at hbody
  refine run_takes (hbody.bind fun read hread => .get_bind fun offset => ?_)
  exact .pure hread

theorem Expr.read_printed {e : Expr} (h : e.Writable true) :
    ∃ read, Expr.read (String.ofList e.print) = .ok read ∧ read.unplaced = e.unplaced := by
  have he := e.reads true h
  have hread := he.spells (16 * (e.print.length + 1)) (by omega) (.nil true)
  have hb := he.starts.not_blank []
  rw [List.append_nil] at hread hb
  refine run_takes ((blanks_none hb).bind fun _ _ => hread.bind fun read hread => ?_)
  exact (blanks_none (by simp)).bind fun _ _ => .pure hread

/-- The readers of bodies and of expressions undo the printer: every tree that can be written is read from
its canonical text, apart from the places. -/
theorem rereads :
    (∀ body : List Element, Element.WritableAll body →
      ∃ read, Element.readAll (String.ofList (Element.printAll body)) = .ok read ∧
        Element.unplacedAll read = Element.unplacedAll body) ∧
    (∀ e : Expr, e.Writable true →
      ∃ read, Expr.read (String.ofList e.print) = .ok read ∧ read.unplaced = e.unplaced) :=
  ⟨fun _ => Element.readAll_printAll, fun _ => Expr.read_printed⟩

theorem rereads_listing :
    let entry : Expr := .map (.attribute "xs" default)
      [.call ⟨"first", false⟩ (.positional []) default,
        .anonymous (some "x") [.tag (.propertyAt (.attribute "x" default) (.literal "k\"" default) default) [] default]
          default] default
    let test : Condition := .and (.or (.value (.attribute "a" default)) (.not (.value (.attribute "b" default))))
      (.value (.callComputed (.attribute "c" default) (.positional []) default))
    let body : List Element := [.text "a|b ", .tag entry [⟨"separator", .literal ", " default, default⟩] default,
      .choice [⟨test, [.text "\x7d"], default⟩] (some [])]
    let source : String := "a<\\u007c>b < xs:first(),\x7bx| < x.(\"k\\\"\")>\x7d; separator=\", \">" ++
      "<if((a || !b) && (c)())>\\\x7d<else><endif>"
    String.ofList (Element.printAll body) = source ∧ Element.WritableAll body ∧
      (∃ read, Element.readAll source = .ok read ∧ Element.unplacedAll read = Element.unplacedAll body) ∧
      entry.Writable true ∧
      ∃ read, Expr.read (String.ofList entry.print) = .ok read ∧ read.unplaced = entry.unplaced := by
  intro entry test body source
  have hprint : String.ofList (Element.printAll body) = source := by decide +kernel
  have hentry : entry.Writable true := by
    simp [entry, Expr.Writable, Expr.MappableAll, Expr.Mappable, Arguments.Writable, Expr.WritableAll,
      Element.WritableAll, Element.Writable, TagOption.WritableAll, Expr.IsTarget, Element.IsText]
    decide
  have hbody : Element.WritableAll body := by
    simp [body, test, Element.WritableAll, Element.Writable, hentry, Expr.Writable, Arguments.Writable,
      Expr.WritableAll, TagOption.WritableAll, Branch.WritableAll, Condition.Writable, Expr.IsRendered,
      Element.IsText]
    decide
  exact ⟨hprint, hbody, hprint ▸ rereads.1 body hbody, hentry, rereads.2 entry hentry⟩

end Stencil
