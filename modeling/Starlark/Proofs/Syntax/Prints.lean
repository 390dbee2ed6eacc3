import Starlark.Proofs.Reference.Levels

/-! # Printed expressions

An expression is printed well at a level if its text is a phrase whose marks spell it there. Each
kind of expression is printed well where its parts are.
-/
namespace Starlark
open Reference Form

/-- There is a text, a phrase that begins with none of some characters, and it spells a form with
values of some kind. -/
def Prints (file : String) (avoided : List Char) {α : Type} (f : Form α) (text? : Option String)
    (P : α → Prop) : Prop :=
  ∃ ms text, text? = some text ∧ sources ms = text.toList ∧ Phrase ms ∧ Begins avoided ms ∧
    Spells file f ms P

/-- The characters that no expression begins with. -/
def neverFirst : List Char := blanks ++ joints

/-- The text of the expression is the expression, at a level. -/
def Expr.Prints (file : String) (l : Level) (e : Expr) : Prop :=
  Starlark.Prints file neverFirst (exprForm l) e.text? fun v => v.bare = e.bare

variable {file : String}

theorem Begins.not_blank {ms : List Mark} (h : Begins neverFirst ms) : Begins blanks ms :=
  h.mono (List.subset_append_left _ _)

theorem Begins.not_joint {ms : List Mark} (h : Begins neverFirst ms) : Begins joints ms :=
  h.mono (List.subset_append_right _ _)

theorem Expr.Prints.climb {e : Expr} {l l' : Level} (h : e.Prints file l')
    (hrank : l.rank ≤ l'.rank) : e.Prints file l := by
  obtain ⟨ms, text, htext, hsource, hphrase, hbegins, hspells⟩ := h
  exact ⟨ms, text, htext, hsource, hphrase, hbegins, hspells.climb hrank⟩

theorem Expr.Prints.loosest {e : Expr} {l : Level} (h : e.Prints file l) : e.Prints file .test :=
  h.climb l.test_rank_le

/-- The text may follow an operand, and be followed by what follows an operand. -/
def Trails (file : String) {α : Type} (f : Form α) (text : List Char) (P : α → Prop) : Prop :=
  ∃ ms, sources ms = text ∧ Phrase ms ∧
    (∀ rest, Scan.Closes rest → Scan.Closes (sources ms ++ rest)) ∧ Spells file f ms P

theorem Trails.nil {α : Type} {f : Form α} {P : α → Prop} (h : Spells file f [] P) :
    Trails file f [] P := ⟨[], rfl, .nil, fun _ hrest => hrest, h⟩

theorem Trails.separator {α : Type} {f : Form α} {P : α → Prop} {t : Terminal} {ms : List Mark}
    (ht : t ∈ Terminal.separators) (h : Phrase ms) (hspells : Spells file f (.spelled t :: ms) P) :
    Trails file f (sources (.spelled t :: ms)) P := by
  have hclosing : ∀ t ∈ Terminal.separators, t ∈ Terminal.closing := by decide
  exact ⟨_, rfl, h.separator ht, fun rest _ => closes_spelled (hclosing t ht) ms rest, hspells⟩

/-! ## Words and signs between blanks -/

theorem begins_spelled {t : Terminal} (ht : t ∈ Terminal.spelled) (ms : List Mark) :
    Begins blanks (.spelled t :: ms) := by
  have hfirst : ∀ t ∈ Terminal.spelled, (Scan.spelling t).head?.any (· ∉ blanks) = true := by
    decide
  obtain ⟨c, cs, hspelling, hc⟩ := exists_cons_of_any (hfirst t ht)
  exact .spelled hspelling (of_decide_eq_true hc) ms

/-- A word or a sign that may stand between blanks. -/
def Terminal.IsOperator (t : Terminal) : Prop := t ∈ Scan.keywords ∨ t ∈ Terminal.signs

instance : DecidablePred Terminal.IsOperator := fun _ => inferInstanceAs (Decidable (_ ∨ _))

theorem Terminal.IsOperator.spelled {t : Terminal} (h : t.IsOperator) : t ∈ Terminal.spelled := by
  have hword : ∀ t ∈ Scan.keywords, t ∈ Terminal.spelled := by decide
  rcases h with h | h
  · exact hword t h
  · exact (List.mem_filter.mp h).1

namespace Phrase
variable {ms ns : List Mark}

theorem apart {t : Terminal} (ht : t.IsOperator) (h : Phrase ms) (hbegins : Begins blanks ms) :
    Phrase (.spelled t :: .blank :: ms) := by
  have hblank := h.blank hbegins
  rcases ht with ht | ht
  · exact (word ht).append hblank fun rest _ => closes_blank ms rest
  · refine sign ht hblank (.of_cons (c := ' ') rfl ?_)
    decide

/-- Two phrases with a word or a sign between them. -/
theorem infixed {t : Terminal} (ht : t.IsOperator) (h : Phrase ms) (h' : Phrase ns)
    (hbegins : Begins blanks ns) : Phrase (ms ++ .blank :: .spelled t :: .blank :: ns) :=
  h.append ((h'.apart ht hbegins).blank (begins_spelled ht.spelled _))
    fun rest _ => closes_blank _ rest

end Phrase

namespace BinaryOp

/-- An operator with the blanks around it. -/
def marks (op : BinaryOp) : List Mark :=
  .blank :: op.terminals.flatMap fun t => [Mark.spelled t, .blank]

theorem sources_marks (op : BinaryOp) : sources op.marks = ' ' :: (op.text.toList ++ [' ']) := by
  cases op <;> rfl

theorem shapes_marks (op : BinaryOp) : (shapes op.marks).map Prod.fst = op.terminals := by
  cases op <;> rfl

theorem isOperator (op : BinaryOp) : ∀ t ∈ op.terminals, t.IsOperator := by
  cases op <;> decide

theorem phrase_marks (op : BinaryOp) {ms : List Mark} (h : Phrase ms) (hbegins : Begins blanks ms) :
    Phrase (op.marks ++ ms) := by
  have hall : ∀ ts : List Terminal, (∀ t ∈ ts, t.IsOperator) →
      Phrase (ts.flatMap (fun t => [Mark.spelled t, .blank]) ++ ms) ∧
        Begins blanks (ts.flatMap (fun t => [Mark.spelled t, .blank]) ++ ms) := by
    intro ts hts
    induction ts with
    | nil => exact ⟨h, hbegins⟩
    | cons t ts ih =>
      obtain ⟨ht, hts⟩ := List.forall_mem_cons.mp hts
      obtain ⟨hphrase, hbegins⟩ := ih hts
      exact ⟨hphrase.apart ht hbegins, begins_spelled ht.spelled _⟩
  obtain ⟨hphrase, hbegins⟩ := hall op.terminals op.isOperator
  exact hphrase.blank hbegins

end BinaryOp

/-! ## Leaves -/

/-- A name is a phrase, and makes an identifier of that name. -/
theorem Identifier.IsPlain.phrase {x : Identifier} (h : x.IsPlain) :
    Phrase [.token .name x.name.toList] ∧ Begins neverFirst [.token .name x.name.toList] := by
  obtain ⟨hname, hkeyword⟩ := h
  obtain ⟨c, cs, hcs, hc, hwords⟩ := hname.exists_cons
  have hother : ∀ d ∈ '\n' :: neverFirst, (d.isAlpha || d == '_') = false :=
    List.all_iff_forall_prop.mp (by decide)
  have hne : ∀ d ∈ '\n' :: neverFirst, c ≠ d := by
    rintro d hd rfl
    rw [hother c hd] at hc
    cases hc
  refine ⟨.operand (by decide) ⟨?_, ?_⟩ fun rest hrest => Scan.reads_name hname hkeyword hrest, ?_⟩
  · rw [hcs]
    exact List.cons_ne_nil c cs
  · rw [hcs, List.mem_cons, not_or]
    refine ⟨(hne _ List.mem_cons_self).symm, fun hmem => ?_⟩
    have hword := hwords _ hmem
    revert hword
    decide
  · have hsource : sources [.token .name x.name.toList] = c :: cs := by
      rw [sources_cons, Mark.source, hcs, sources_nil, List.append_nil]
    exact .of_cons hsource fun hmem => hne c (List.mem_cons_of_mem _ hmem) rfl

/-- A numeral is a phrase. -/
theorem phrase_numeral {kind : Terminal} {text : List Char}
    (hkind : kind ∉ .newline :: Terminal.brackets) (hne : text ≠ [])
    (hchars : ∀ c ∈ text, c ∈ numeralChars)
    (hreads : ∀ rest, Scan.Closes rest → Scan.Reads kind text rest) :
    Phrase [.token kind text] ∧ Begins neverFirst [.token kind text] := by
  have hchar : ∀ c ∈ numeralChars, c ≠ '\n' ∧ c ∉ neverFirst :=
    List.all_iff_forall_prop.mp (by decide)
  constructor
  · exact .operand hkind ⟨hne, fun hmem => (hchar _ (hchars _ hmem)).1 rfl⟩ hreads
  · obtain ⟨c, cs, rfl⟩ := List.exists_cons_of_ne_nil hne
    have hsource : sources [.token kind (c :: cs)] = c :: cs := by
      rw [sources_cons, Mark.source, sources_nil, List.append_nil]
    exact .of_cons hsource (hchar c (hchars c List.mem_cons_self)).2

theorem phrase_decimal (k : Nat) :
    Phrase [.token .decimal (decimalText k)] ∧
      Begins neverFirst [.token .decimal (decimalText k)] :=
  phrase_numeral (by decide) (decimalText_ne_nil k) (mem_numeralChars (decimalText_digits k))
    fun _ => Scan.reads_decimal k

theorem phrase_hexadecimal (k : Nat) :
    Phrase [.token .hexadecimal (hexadecimalNumeral k)] ∧
      Begins neverFirst [.token .hexadecimal (hexadecimalNumeral k)] :=
  phrase_numeral (by decide) (List.cons_ne_nil _ _) (hexadecimalNumeral_chars k)
    fun _ => Scan.reads_hexadecimal k

/-- The kinds of numerals. -/
def numeralForm : Form Token := .t .decimal <|> .t .hexadecimal <|> .t .octal

/-- A numeral spells the integer that it is read as. -/
theorem spells_integer {kind : Terminal} {text : List Char} {n : Int}
    (hspells : Spells file numeralForm [.token kind text] fun tok => tok.text = text)
    (hvalue : decodeInteger text = .ok n) :
    Spells file (exprForm .atom) [.token kind text] fun v => v.bare = .int n none := by
  refine .right (.left (.r (hspells.act fun loc tok n' htok => ?_)))
  refine ⟨.int n (tok.span.inFile file), n', ?_, .refl n', rfl⟩
  rw [Build.integer, htok, hvalue]
  rfl

/-- An identifier made of the token of a name has that name. -/
theorem Identifier.bare_of_text {x : Identifier} {tok : Token} (h : tok.text = x.name.toList)
    (id : Nat) (loc : Option Location) : Identifier.bare ⟨tok.string, id, loc⟩ = x.bare := by
  rw [Identifier.bare, Identifier.bare, Token.string, h, String.ofList_toList]

theorem integerText?_natCast (k : Nat) :
    integerText? k = if k < 10 ^ maxDecimalDigits then some (toString (k : Int)) else none := by
  rw [integerText?]
  generalize maxDecimalDigits = m
  rfl

namespace Expr.Prints

theorem ident {x : Identifier} (h : x.IsPlain) : (Expr.ident x).Prints file .atom := by
  obtain ⟨hphrase, hbegins⟩ := h.phrase
  refine ⟨[.token .name x.name.toList], x.name, rfl, List.append_nil _, hphrase, hbegins, ?_⟩
  refine .left ((Spells.t _ _ _).act fun loc tok n htok => ?_)
  exact ⟨_, _, rfl, ⟨rfl, rfl⟩, congrArg Expr.ident (Identifier.bare_of_text htok _ _)⟩

/-- The integers whose decimal digits are read back. -/
theorem int {n : Int} (h : 0 ≤ n ∧ n < 10 ^ maxDecimalDigits) (loc : Option Location) :
    (Expr.int n loc).Prints file .atom := by
  obtain ⟨k, rfl⟩ := Int.eq_ofNat_of_zero_le h.1
  have hk : k < 10 ^ maxDecimalDigits := by exact_mod_cast h.2
  obtain ⟨hphrase, hbegins⟩ := phrase_decimal k
  refine ⟨[.token .decimal (decimalText k)], toString (k : Int), ?_, ?_, hphrase, hbegins, ?_⟩
  · rw [Expr.text?, integerText?_natCast, if_pos hk]
  · rw [decimalText_toString]
    exact List.append_nil _
  · refine spells_integer (.left (.t _ _ _)) ?_
    rw [decodeInteger_decimalText, if_pos hk]

theorem str (s : StringLiteral) : (Expr.str s).Prints file .atom := by
  refine ⟨[.token .string (quoted s.value).toList], quoted s.value, rfl, List.append_nil _, ?_, ?_,
    ?_⟩
  · refine .operand (by decide) ⟨?_, ?_⟩ fun rest hrest => Scan.reads_string s.value hrest
    · rw [quoted_toList]
      exact List.cons_ne_nil _ _
    · rw [quoted_toList]
      simpa using not_mem_escaped s.value.toList
  · have hsource : sources [.token .string (quoted s.value).toList] =
        '"' :: (escaped s.value.toList ++ ['"']) := by
      rw [sources_cons, Mark.source, sources_nil, List.append_nil, quoted_toList]
    exact .of_cons hsource (by decide)
  · refine .right (.right (.left (.r ((Spells.left (.t _ _ _)).act fun loc tok n htok => ?_))))
    have hvalue : decodeString file tok.span.start tok.text = ⟨s.value.toList, [], []⟩ := by
      rw [htok, decodeString_quoted]
    refine ⟨_, _, rfl, ?_, ?_⟩
    · rw [hvalue]
      exact ⟨List.append_nil _, List.append_nil _⟩
    · rw [hvalue, Expr.bare, Expr.bare, String.ofList_toList]

/-! ## Operators -/

variable {x y t c e o k : Expr}

theorem binary {op : BinaryOp} (hx : x.Prints file (.binary op.level))
    (hy : y.Prints file op.level.operand) (loc : Option Location) :
    (Expr.binary x op y loc).Prints file (.binary op.level) := by
  obtain ⟨xs, x', hx', hxs, hxphrase, hxbegins, hxspells⟩ := hx
  obtain ⟨ys, y', hy', hys, hyphrase, hybegins, hyspells⟩ := hy
  refine ⟨xs ++ (op.marks ++ ys), x' ++ " " ++ op.text ++ " " ++ y', ?_, ?_, ?_,
    hxbegins.append _, ?_⟩
  · rw [Expr.text?, hx', hy']
    rfl
  · simp only [String.toList_append, ← hxs, ← hys, sources_append, op.sources_marks,
      List.append_assoc, List.cons_append]
    rfl
  · exact hxphrase.append (op.phrase_marks hyphrase hybegins.not_blank)
      fun rest _ => closes_blank _ rest
  · exact hxspells.chain (.operator op op.shapes_marks) hyspells

theorem not (hx : x.Prints file .negation) (loc : Option Location) :
    (Expr.unary .not x loc).Prints file .negation := by
  obtain ⟨xs, x', hx', hxs, hphrase, hbegins, hspells⟩ := hx
  refine ⟨.spelled .kwNot :: .blank :: xs, "not " ++ x', ?_, ?_, ?_, .spelled rfl (by decide) _, ?_⟩
  · rw [Expr.text?, hx']
    rfl
  · simp only [String.toList_append, ← hxs, sources_cons]
    rfl
  · exact hphrase.apart (by decide) hbegins.not_blank
  · refine .left ((Spells.spelled .kwNot hspells.level.blank.last).build ?_)
    rintro loc ⟨_, v, _⟩ hv
    exact congrArg (Expr.unary .not · none) hv

theorem sign {op : UnaryOp} (hop : op ≠ .not) (hx : x.Prints file .unary)
    (loc : Option Location) : (Expr.unary op x loc).Prints file .unary := by
  obtain ⟨xs, x', hx', hxs, hphrase, hbegins, hspells⟩ := hx
  have htext : (Expr.unary op x loc).text? = some (op.text ++ x') := by
    cases op with
    | not => exact absurd rfl hop
    | neg | pos | invert =>
      rw [Expr.text?, hx']
      · rfl
      · exact hop
  have signed : ∀ a : Terminal, a ∈ Terminal.signs → op.text.toList = Scan.spelling a →
      Begins neverFirst [.spelled a] → Spells file (.r .unaryOp) [.spelled a] (· = op) →
      (Expr.unary op x loc).Prints file .unary := by
    intro a ha hspelling hfirst hop
    refine ⟨.spelled a :: xs, op.text ++ x', htext, ?_, hphrase.sign ha hbegins.not_joint,
      hfirst.append xs, ?_⟩
    · rw [String.toList_append, hspelling, ← hxs, sources_cons]
      rfl
    · refine .left ((hop.seq hspells.level.last).build ?_)
      rintro loc ⟨_, v, _⟩ ⟨rfl, hv⟩
      exact congrArg (Expr.unary _ · none) hv
  cases op with
  | not => exact absurd rfl hop
  | pos =>
    refine signed .plus (by decide) rfl (.spelled rfl (by decide) _) (.r (.left ?_))
    exact (Spells.t _ _ _).map fun _ _ => rfl
  | neg =>
    refine signed .minus (by decide) rfl (.spelled rfl (by decide) _) ?_
    exact .r (.right (.left ((Spells.t _ _ _).map fun _ _ => rfl)))
  | invert =>
    refine signed .tilde (by decide) rfl (.spelled rfl (by decide) _) ?_
    exact .r (.right (.right ((Spells.t _ _ _).map fun _ _ => rfl)))

theorem unary {op : UnaryOp} (hx : x.Prints file op.level) (loc : Option Location) :
    (Expr.unary op x loc).Prints file op.level := by
  cases op with
  | not => exact not hx loc
  | neg | pos | invert => exact sign (by decide) hx loc

theorem conditional (ht : t.Prints file (.binary .or)) (hc : c.Prints file (.binary .or))
    (he : e.Prints file .test) (loc : Option Location) :
    (Expr.conditional t c e loc).Prints file .test := by
  obtain ⟨ts, t', ht', hts, htphrase, htbegins, htspells⟩ := ht
  obtain ⟨cs, c', hc', hcs, hcphrase, hcbegins, hcspells⟩ := hc
  obtain ⟨es, e', he', hes, hephrase, hebegins, hespells⟩ := he
  refine ⟨ts ++ .blank :: .spelled .kwIf :: .blank ::
    (cs ++ .blank :: .spelled .kwElse :: .blank :: es), t' ++ " if " ++ c' ++ " else " ++ e',
    ?_, ?_, ?_, htbegins.append _, ?_⟩
  · rw [Expr.text?, ht', hc', he']
    rfl
  · simp only [String.toList_append, ← hts, ← hcs, ← hes, sources_append, sources_cons,
      List.append_assoc]
    rfl
  · have htail := hcphrase.infixed (by decide) hephrase hebegins.not_blank (t := .kwElse)
    exact htphrase.infixed (by decide) htail (hcbegins.not_blank.append _)
  · have helse := Spells.spelled .kwElse hespells.level.last.blank
    have hif := Spells.spelled .kwIf (hcspells.level.seq helse.blank).blank
    refine .left ((htspells.level.seq hif.blank).build ?_)
    rintro loc ⟨t', _, c', _, e', _⟩ ⟨ht, hc, he⟩
    dsimp only at ht hc he ⊢
    rw [Expr.bare, Expr.bare, ht, hc, he]

/-! ## What follows a primary -/

theorem dot {f : Identifier} (ho : o.Prints file .primary) (hf : f.IsPlain)
    (loc : Option Location) : (Expr.dot o f loc).Prints file .primary := by
  obtain ⟨os, o', ho', hos, hphrase, hbegins, hspells⟩ := ho
  obtain ⟨hfield, -⟩ := hf.phrase
  refine ⟨os ++ .spelled .dot :: [.token .name f.name.toList], o' ++ "." ++ f.name, ?_, ?_, ?_,
    hbegins.append _, ?_⟩
  · rw [Expr.text?, ho']
    rfl
  · simp only [String.toList_append, ← hos, sources_append, sources_cons, sources_nil,
      Mark.source, List.append_nil, List.append_assoc]
    rfl
  · exact hphrase.follow (by decide) (hfield.separator (by decide))
  · have hname := Spells.spelled .dot (Spells.t file .name f.name.toList).last
    refine .right (.right (.left ((hspells.level.seq hname).act fun loc v n hv => ?_)))
    obtain ⟨o', _, tok, _⟩ := v
    obtain ⟨ho, htok⟩ := hv
    refine ⟨_, _, rfl, ⟨rfl, rfl⟩, ?_⟩
    rw [Expr.bare, Expr.bare, Identifier.bare_of_text htok]
    exact congrArg (Expr.dot · _ _) ho

theorem index (ho : o.Prints file .primary) (hk : k.Prints file .test) (loc : Option Location) :
    (Expr.index o k loc).Prints file .primary := by
  obtain ⟨os, o', ho', hos, hphrase, hbegins, hspells⟩ := ho
  obtain ⟨ks, k', hk', hks, hkphrase, -, hkspells⟩ := hk
  refine ⟨os ++ .spelled .lbracket :: (ks ++ [Mark.spelled .rbracket]), o' ++ "[" ++ k' ++ "]",
    ?_, ?_, ?_, hbegins.append _, ?_⟩
  · rw [Expr.text?, ho', hk']
    rfl
  · simp only [String.toList_append, ← hos, ← hks, sources_append, sources_cons,
      sources_nil, List.append_assoc]
    rfl
  · exact hphrase.follow (by decide) (hkphrase.enclosed (by decide))
  · have hkey : Spells file (.r .subscript) ks fun v => ∃ k', v = .key k' ∧ k'.bare = k.bare :=
      .r (.left (hkspells.level.map fun v hv => ⟨v, rfl, hv⟩))
    refine .right (.left ((hspells.level.seq hkey.enclosed).build ?_))
    rintro loc ⟨o', _, _, _⟩ ⟨ho, k', rfl, hk⟩
    dsimp only at ho ⊢
    rw [Build.subscript, Expr.bare, Expr.bare, ho, hk]

/-- An end of a slice, or none. -/
theorem opt {a : Option Expr} (h : ∀ e ∈ a, e.Prints file .test) :
    ∃ ms text, Expr.textOrEmpty? a = some text ∧ sources ms = text.toList ∧ Phrase ms ∧
      Spells file (.opt (.r (.expr .test))) ms fun v => v.map Expr.bare = Expr.bareOpt a := by
  cases a with
  | none =>
    refine ⟨[], "", rfl, rfl, .nil, Spells.none.mono ?_⟩
    rintro _ rfl
    rfl
  | some e =>
    obtain ⟨ms, text, htext, hms, hphrase, -, hspells⟩ := h e rfl
    refine ⟨ms, text, htext, hms, hphrase, hspells.level.some.mono ?_⟩
    rintro _ ⟨v, rfl, hv⟩
    exact congrArg some hv

theorem slice {a b c : Option Expr} (ho : o.Prints file .primary)
    (ha : ∀ e ∈ a, e.Prints file .test) (hb : ∀ e ∈ b, e.Prints file .test)
    (hc : ∀ e ∈ c, e.Prints file .test) (loc : Option Location) :
    (Expr.slice o a b c loc).Prints file .primary := by
  obtain ⟨os, o', ho', hos, hphrase, hbegins, hspells⟩ := ho
  obtain ⟨as, a', ha', has, haphrase, haspells⟩ := opt ha
  obtain ⟨bs, b', hb', hbs, hbphrase, hbspells⟩ := opt hb
  -- the third part stands with its colon, or not at all
  obtain ⟨text, tail, htext, htail, cs, rfl, hcphrase, hccloses, hcspells⟩ : ∃ text tail,
      (Expr.slice o a b c loc).text? = some text ∧
      text.toList = o'.toList ++ ('[' :: a'.toList ++ (':' :: b'.toList ++ (tail ++ [']']))) ∧
      Trails file (.opt (.seq (.t .colon) (.seq (.opt (.r (.expr .test))) .eps))) tail fun v =>
        (v.bind fun p => p.2.1).map Expr.bare = Expr.bareOpt c := by
    cases c with
    | none =>
      refine ⟨o' ++ "[" ++ a' ++ ":" ++ b' ++ "]", [], ?_, ?_, .nil (Spells.none.mono ?_)⟩
      · rw [Expr.text?, ho', ha', hb']
        rfl
      · simp only [String.toList_append, List.append_assoc]
        rfl
      · rintro _ rfl
        rfl
    | some c =>
      obtain ⟨cs, c', hc', hcs, hcphrase, hcspells⟩ := opt hc
      have hstep := (Spells.spelled .colon hcspells.last).some
      refine ⟨o' ++ "[" ++ a' ++ ":" ++ b' ++ ":" ++ c' ++ "]", _, ?_, ?_,
        .separator (by decide) hcphrase (hstep.mono ?_)⟩
      · rw [Expr.textOrEmpty?] at hc'
        rw [Expr.text?, ho', ha', hb', hc']
        rfl
      · simp only [String.toList_append, List.append_assoc, sources_cons, hcs]
        rfl
      · rintro _ ⟨v, rfl, hv⟩
        exact hv
  refine ⟨os ++ .spelled .lbracket :: ((as ++ .spelled .colon :: (bs ++ cs)) ++
    [Mark.spelled .rbracket]), text, htext, ?_, ?_, hbegins.append _, ?_⟩
  · simp only [htail, ← hos, ← has, ← hbs, sources_append, sources_cons, sources_nil,
      List.append_assoc]
    rfl
  · have htail := (hbphrase.append hcphrase hccloses).separator (t := .colon) (by decide)
    exact hphrase.follow (by decide) ((haphrase.follow (by decide) htail).enclosed (by decide))
  · have hrange : Spells file (.r .subscript) (as ++ .spelled .colon :: (bs ++ cs)) fun v =>
        ∃ a' b' c', v = .range a' b' c' ∧ a'.map Expr.bare = Expr.bareOpt a ∧
          b'.map Expr.bare = Expr.bareOpt b ∧ c'.map Expr.bare = Expr.bareOpt c := by
      have hends := haspells.seq (Spells.spelled .colon (hbspells.seq hcspells))
      refine .r (.right (.r (hends.map ?_)))
      rintro ⟨a', _, b', c'⟩ ⟨ha, hb, hc⟩
      exact ⟨a', b', _, rfl, ha, hb, hc⟩
    refine .right (.left ((hspells.level.seq hrange.enclosed).build ?_))
    rintro loc ⟨o', _, _, _⟩ ⟨ho, a', b', c', rfl, ha, hb, hc⟩
    dsimp only at ho ⊢
    rw [Build.subscript, Expr.bare, Expr.bare, ho, Expr.bareOpt_eq_map a', ha,
      Expr.bareOpt_eq_map b', hb, Expr.bareOpt_eq_map c', hc]

end Expr.Prints
end Starlark
