import Starlark.Proofs.Syntax.Prints

/-! # Printed lists

Items set apart by commas, and the clauses of a comprehension, are printed well where each of
them is. So displays, comprehensions and calls are printed well where their parts are.
-/
namespace Starlark
open Reference Form

variable {file : String}

theorem Expr.texts?_eq_mapM (es : List Expr) : texts? es = es.mapM text? := by
  induction es with
  | nil => rfl
  | cons e es ih => rw [texts?, ih, List.mapM_cons]

theorem Entry.texts?_eq_mapM (ds : List Entry) : texts? ds = ds.mapM text? := by
  induction ds with
  | nil => rfl
  | cons d ds ih => rw [texts?, ih, List.mapM_cons]

theorem Argument.texts?_eq_mapM (as : List Argument) : texts? as = as.mapM text? := by
  induction as with
  | nil => rfl
  | cons a as ih => rw [texts?, ih, List.mapM_cons]

/-- The texts after the first one, each behind a comma and a blank. -/
def commaTail (texts : List String) : List Char := texts.flatMap fun s => ',' :: ' ' :: s.toList

theorem commaSeparated_cons (s : String) (texts : List String) :
    (commaSeparated (s :: texts)).toList = s.toList ++ commaTail texts := by
  rw [commaSeparated, String.toList_intercalate]
  induction texts generalizing s with
  | nil =>
    rw [List.map_singleton, List.intercalate_singleton]
    exact (List.append_nil _).symm
  | cons t texts ih =>
    rw [List.map_cons, List.map_cons, List.intercalate_cons_cons, ← List.map_cons, ih t, commaTail,
      commaTail, List.flatMap_cons, List.append_assoc]
    rfl

/-- An expression as an item. -/
theorem Expr.Prints.item {e : Expr} {l : Level} (h : e.Prints file l) :
    Starlark.Prints file blanks (.r (.expr l)) e.text? fun v => v.bare = e.bare := by
  obtain ⟨ms, text, htext, hms, hphrase, hbegins, hspells⟩ := h
  exact ⟨ms, text, htext, hms, hphrase, hbegins.not_blank, hspells.level⟩

section Items

variable {ι α γ : Type} {f : Form α} {text? : ι → Option String} {key : α → γ} {target : ι → γ}

theorem prints_commaTail {xs : List ι}
    (h : ∀ x ∈ xs, Prints file blanks f (text? x) fun v => key v = target x) :
    ∃ texts, xs.mapM text? = some texts ∧
      Trails file (.star (after .comma f)) (commaTail texts)
        fun vs => vs.map key = xs.map target := by
  induction xs with
  | nil => exact ⟨[], rfl, .nil .nil⟩
  | cons x xs ih =>
    rw [List.forall_mem_cons] at h
    obtain ⟨⟨ms, text, htext, hms, hphrase, hbegins, hspells⟩, hxs⟩ := h
    obtain ⟨texts, htexts, ns, hns, hnphrase, hncloses, hnspells⟩ := ih hxs
    have hsources : commaTail (text :: texts) =
        sources (.spelled .comma :: .blank :: (ms ++ ns)) := by
      rw [commaTail, List.flatMap_cons, ← commaTail, ← hms, ← hns, sources_cons, sources_cons,
        sources_append]
      rfl
    refine ⟨text :: texts, ?_, ?_⟩
    · rw [List.mapM_cons, htext, htexts]
      rfl
    · rw [hsources]
      exact .separator (by decide) ((hphrase.append hnphrase hncloses).blank (hbegins.append ns))
        (.cons (.after hspells) hnspells)

/-- Items set apart by commas. -/
theorem prints_commas {xs : List ι}
    (h : ∀ x ∈ xs, Prints file blanks f (text? x) fun v => key v = target x) :
    ∃ ms texts, xs.mapM text? = some texts ∧ sources ms = (commaSeparated texts).toList ∧
      Phrase ms ∧ Spells file (commas f) ms fun vs => vs.map key = xs.map target := by
  cases xs with
  | nil => exact ⟨[], [], rfl, rfl, .nil, .commasNil⟩
  | cons x xs =>
    rw [List.forall_mem_cons] at h
    obtain ⟨⟨ms, text, htext, hms, hphrase, -, hspells⟩, hxs⟩ := h
    obtain ⟨texts, htexts, ns, hns, hnphrase, hncloses, hnspells⟩ := prints_commaTail hxs
    refine ⟨ms ++ ns, text :: texts, ?_, ?_, hphrase.append hnphrase hncloses,
      .commasCons hspells hnspells⟩
    · rw [List.mapM_cons, htext, htexts]
      rfl
    · rw [commaSeparated_cons, sources_append, hms, hns]

end Items

namespace Expr.Prints

variable {es : List Expr} {e f : Expr}

/-! ## Displays -/

theorem list (h : ∀ e ∈ es, e.Prints file .test) (loc : Option Location) :
    (Expr.list es false loc).Prints file .atom := by
  obtain ⟨ms, texts, htexts, hms, hphrase, hspells⟩ := prints_commas fun e he => (h e he).item
  refine ⟨.spelled .lbracket :: (ms ++ [Mark.spelled .rbracket]), "[" ++ commaSeparated texts ++ "]",
    ?_, ?_, hphrase.enclosed (by decide), .spelled rfl (by decide) _, ?_⟩
  · rw [Expr.text?, Expr.texts?_eq_mapM, htexts]
    rfl
  · rw [String.toList_append, String.toList_append, ← hms,
      sources_cons, sources_append]
    rfl
  · refine .right (.right (.right (.right (.right (.left (hspells.enclosed.build ?_))))))
    rintro loc ⟨_, vs, _⟩ hvs
    rw [Expr.bare, Expr.bare, Expr.bareAll_eq_map, Expr.bareAll_eq_map]
    exact congrArg (Expr.list · false Option.none) hvs

theorem bare_parenthesised (loc : Option Location) (e : Expr) :
    (Build.parenthesised loc e).bare = e.bare := by
  cases e with
  | list es isTuple _ => cases isTuple <;> rfl
  | _ => rfl

/-- A tuple of some parts in its parentheses. -/
theorem parenthesised (ms : List Mark) (text : String) {loc : Option Location}
    (htext : (Expr.list es true loc).text? = some text)
    (hms : text.toList = '(' :: (sources ms ++ [')'])) (hphrase : Phrase ms)
    (hspells : Spells file (tuple (.r (.expr .test))) ms
      fun v => v.bare = (Expr.list es true loc).bare) :
    (Expr.list es true loc).Prints file .atom := by
  refine ⟨.spelled .lparen :: (ms ++ [Mark.spelled .rparen]), text, htext, ?_,
    hphrase.enclosed (by decide), .spelled rfl (by decide) _, ?_⟩
  · rw [hms, sources_cons, sources_append]
    rfl
  · have htuple : Spells file (.r .testList) ms fun v => v.bare = (Expr.list es true loc).bare :=
      .r (.right (.r hspells))
    refine .right (.right (.right (.right (.left (htuple.enclosed.build ?_)))))
    rintro loc ⟨_, v, _⟩ hv
    exact (bare_parenthesised loc v).trans hv

theorem emptyTuple (loc : Option Location) : (Expr.list [] true loc).Prints file .atom := by
  refine ⟨[.spelled .lparen, .spelled .rparen], "()", rfl, rfl, Phrase.nil.enclosed (by decide),
    .spelled rfl (by decide) _, ?_⟩
  · have hparens := Spells.spelled .lparen (Spells.spelled .rparen (.eps file))
    exact .right (.right (.right (.left (hparens.build fun _ _ _ => rfl))))

/-- A tuple of one part has a comma after it. -/
theorem singleton (he : e.Prints file .test) (loc : Option Location) :
    (Expr.list [e] true loc).Prints file .atom := by
  obtain ⟨ms, e', he', hms, hphrase, -, hspells⟩ := he
  refine parenthesised (ms ++ [Mark.spelled .comma]) ("(" ++ e' ++ ",)") ?_ ?_ ?_ ?_
  · rw [Expr.text?, he']
    rfl
  · rw [String.toList_append, String.toList_append, ← hms, sources_append]
    simp only [List.append_assoc]
    rfl
  · exact hphrase.follow (by decide) (Phrase.nil.separator (by decide))
  · rw [Expr.bare, Expr.bareAll, Expr.bareAll]
    exact hspells.level.tupleOne

/-- A tuple of two parts or more. -/
theorem several {e' : Expr} (h : ∀ x ∈ e :: e' :: es, x.Prints file .test)
    (loc : Option Location) : (Expr.list (e :: e' :: es) true loc).Prints file .atom := by
  rw [List.forall_mem_cons, List.forall_mem_cons] at h
  obtain ⟨⟨ms, t, ht, hms, hphrase, -, hspells⟩,
    ⟨ns, t', ht', hns, hnphrase, hnbegins, hnspells⟩, hes⟩ := h
  obtain ⟨texts, htexts, os, hos, hophrase, hocloses, hospells⟩ :=
    prints_commaTail fun x hx => (hes x hx).item
  refine parenthesised (ms ++ .spelled .comma :: .blank :: (ns ++ os))
    ("(" ++ commaSeparated (t :: t' :: texts) ++ ")") ?_ ?_ ?_ ?_
  · rw [Expr.text?, Expr.texts?_eq_mapM, List.mapM_cons, List.mapM_cons, ht, ht', htexts]
    · rfl
    · nofun
  · rw [String.toList_append, String.toList_append, commaSeparated_cons, commaTail,
      List.flatMap_cons, ← commaTail, ← hms, ← hns, ← hos, sources_append, sources_cons,
      sources_cons, sources_append]
    simp only [List.append_assoc, List.cons_append]
    rfl
  · have htail := (hnphrase.append hophrase hocloses).blank (hnbegins.not_blank.append os)
    exact hphrase.follow (by decide) (htail.separator (by decide))
  · rw [Expr.bare, Expr.bareAll, Expr.bareAll, Expr.bareAll_eq_map]
    exact hspells.level.tupleMany (.plus (.after hnspells.level) hospells)

theorem tuple (h : ∀ e ∈ es, e.Prints file .test) (loc : Option Location) :
    (Expr.list es true loc).Prints file .atom := by
  rcases es with _ | ⟨e, _ | ⟨e', es⟩⟩
  · exact emptyTuple loc
  · exact singleton (h e List.mem_cons_self) loc
  · exact several h loc

end Expr.Prints

/-- The text of the entry is the entry. -/
def Entry.Prints (file : String) (d : Entry) : Prop :=
  Starlark.Prints file blanks (.r .dictEntry) d.text? fun v => v.bare = d.bare

theorem Entry.Prints.pair {k v : Expr} (hk : k.Prints file .test) (hv : v.Prints file .test)
    (loc : Option Location) : (Entry.mk k v loc).Prints file := by
  obtain ⟨ks, k', hk', hks, hkphrase, hkbegins, hkspells⟩ := hk
  obtain ⟨vs, v', hv', hvs, hvphrase, hvbegins, hvspells⟩ := hv
  refine ⟨ks ++ .spelled .colon :: .blank :: vs, k' ++ ": " ++ v', ?_, ?_, ?_,
    hkbegins.not_blank.append _, ?_⟩
  · rw [Entry.text?, hk', hv']
    rfl
  · rw [String.toList_append, String.toList_append, ← hks, ← hvs, sources_append,
      List.append_assoc]
    rfl
  · exact hkphrase.follow (by decide) ((hvphrase.blank hvbegins.not_blank).separator (by decide))
  · have hvalue := Spells.spelled .colon hvspells.level.last.blank
    refine .r ((hkspells.level.seq hvalue).build ?_)
    rintro loc ⟨k', _, v', _⟩ ⟨hk, hv⟩
    dsimp only at hk hv ⊢
    rw [Entry.bare, Entry.bare, hk, hv]

theorem Expr.Prints.dict {ds : List Entry} (h : ∀ d ∈ ds, d.Prints file)
    (loc : Option Location) : (Expr.dict ds loc).Prints file .atom := by
  obtain ⟨ms, texts, htexts, hms, hphrase, hspells⟩ := prints_commas h
  refine ⟨.spelled .lbrace :: (ms ++ [Mark.spelled .rbrace]),
    "\x7b" ++ commaSeparated texts ++ "\x7d", ?_, ?_, hphrase.enclosed (by decide),
    .spelled rfl (by decide) _, ?_⟩
  · rw [Expr.text?, Entry.texts?_eq_mapM, htexts]
    rfl
  · rw [String.toList_append, String.toList_append, ← hms,
      sources_cons, sources_append]
    rfl
  · refine .right (.right (.right (.right (.right (.right (.right (.left
      (hspells.enclosed.build ?_))))))))
    rintro loc ⟨_, vs, _⟩ hvs
    rw [Expr.bare, Expr.bare, Entry.bareAll_eq_map, Entry.bareAll_eq_map]
    exact congrArg (Expr.dict · none) hvs

/-! ## Calls -/

/-- The text of the argument is the argument. -/
def Argument.Prints (file : String) (a : Argument) : Prop :=
  Starlark.Prints file blanks (.r .argument) a.text? fun v => v.bare = a.bare

theorem Argument.Prints.starred {v : Expr} {kind : ArgumentKind} {a : Terminal}
    (ha : a ∈ Terminal.signs) (hv : v.Prints file .test) {loc : Option Location}
    (htext : (Argument.mk kind v none loc).text? =
      v.text?.map fun t => String.ofList (Scan.spelling a) ++ t)
    (hform : ∀ {ms P}, Spells file (build (fun loc (_, e, _) => Argument.mk kind e none loc) <|
      .seq (.t a) <| .seq (.r (.expr .test)) .eps) ms P → Spells file (Rule.form .argument) ms P) :
    (Argument.mk kind v none loc).Prints file := by
  obtain ⟨vs, v', hv', hvs, hphrase, hbegins, hspells⟩ := hv
  refine ⟨.spelled a :: vs, String.ofList (Scan.spelling a) ++ v', ?_, ?_,
    hphrase.sign ha hbegins.not_joint, begins_spelled (List.mem_filter.mp ha).1 _, ?_⟩
  · rw [htext, hv']
    rfl
  · rw [String.toList_append, String.toList_ofList, ← hvs]
    rfl
  · refine .r (hform ((Spells.spelled a hspells.level.last).build ?_))
    rintro loc ⟨_, v', _⟩ hv
    exact congrArg (Argument.mk kind · none none) hv

theorem Argument.Prints.keyword {v : Expr} {x : Identifier} (hv : v.Prints file .test)
    (hx : x.IsPlain) (loc : Option Location) :
    (Argument.mk .keyword v (some x) loc).Prints file := by
  obtain ⟨vs, v', hv', hvs, hphrase, hbegins, hspells⟩ := hv
  obtain ⟨xs, _, ⟨⟩, hxs, hxphrase, hxbegins, hxspells⟩ :=
    Expr.Prints.loosest (.ident hx)
  refine ⟨xs ++ .spelled .equal :: vs, x.name ++ "=" ++ v', ?_, ?_, ?_, hxbegins.not_blank.append _,
    ?_⟩
  · rw [Argument.text?, hv']
    rfl
  · rw [String.toList_append, String.toList_append, ← hvs, sources_append, hxs,
      List.append_assoc]
    rfl
  · exact hxphrase.follow (by decide) (hphrase.sign (by decide) hbegins.not_joint)
  · have hvalue := Spells.spelled .equal hspells.level.last
    refine .r (.right (.left ((hxspells.level.seq hvalue).act ?_)))
    rintro loc ⟨x', _, v', _⟩ n ⟨hx, hv⟩
    dsimp only at hx hv ⊢
    cases x' with
    | ident y =>
      refine ⟨_, n, rfl, .refl n, ?_⟩
      rw [Expr.bare, Expr.bare, Expr.ident.injEq] at hx
      rw [Argument.bare, Argument.bare, hv, Option.map_some, Option.map_some, hx]
    | _ => cases hx

theorem Argument.Prints.of_value {v : Expr} {kind : ArgumentKind} {name : Option Identifier}
    (hv : v.Prints file .test) (hname : name.isSome = true ↔ kind = .keyword)
    (hplain : ∀ x ∈ name, x.IsPlain) (loc : Option Location) :
    (Argument.mk kind v name loc).Prints file := by
  cases name with
  | none =>
    cases kind with
    | keyword => exact absurd (hname.mpr rfl) (by simp)
    | positional =>
      obtain ⟨vs, v', hv', hvs, hphrase, hbegins, hspells⟩ := hv
      refine ⟨vs, v', hv', hvs, hphrase, hbegins.not_blank, .r (.left (hspells.level.build ?_))⟩
      intro loc v' hv
      exact congrArg (Argument.mk .positional · none none) hv
    | star =>
      refine starred (by decide) hv ?_ fun h => .right (.right (.left h))
      rw [Argument.text?]
      cases v.text? <;> rfl
    | starStar =>
      refine starred (by decide) hv ?_ fun h => .right (.right (.right h))
      rw [Argument.text?]
      cases v.text? <;> rfl
  | some x =>
    obtain rfl := hname.mp rfl
    exact keyword hv (hplain x rfl) loc

theorem Expr.Prints.call {f : Expr} {as : List Argument} (hf : f.Prints file .primary)
    (h : ∀ a ∈ as, a.Prints file)
    (hplaced : misplacedArgument? false false false as = none) (loc : Option Location) :
    (Expr.call f as loc).Prints file .primary := by
  obtain ⟨fs, f', hf', hfs, hphrase, hbegins, hspells⟩ := hf
  obtain ⟨ms, texts, htexts, hms, hmphrase, hmspells⟩ := prints_commas h
  refine ⟨fs ++ .spelled .lparen :: (ms ++ [Mark.spelled .rparen]),
    f' ++ "(" ++ commaSeparated texts ++ ")", ?_, ?_, ?_, hbegins.append _, ?_⟩
  · rw [Expr.text?, Argument.texts?_eq_mapM, hf', htexts]
    rfl
  · rw [String.toList_append, String.toList_append,
      String.toList_append, ← hfs, ← hms]
    simp only [sources_append, sources_cons, sources_nil, List.append_assoc]
    rfl
  · exact hphrase.follow (by decide) (hmphrase.enclosed (by decide))
  · have hargs : Spells file (.r .arguments) ms
        fun v => v.map Argument.bare = as.map Argument.bare := .r hmspells
    refine .left ((hspells.level.seq hargs.enclosed).act ?_)
    rintro loc ⟨f', _, vs, _⟩ n ⟨hf, hvs⟩
    dsimp only at hf hvs ⊢
    refine ⟨.call f' vs loc, n, ?_, .refl n, ?_⟩
    · rw [Build.call, (misplacedArgument?_bare hvs false false false).mpr hplaced]
      rfl
    · rw [Expr.bare, Expr.bare, hf, Argument.bareAll_eq_map, Argument.bareAll_eq_map, hvs]

/-! ## Comprehensions -/

/-- The text of the clause is the clause; the first clause is read as a `for` in any case. -/
structure Clause.Prints (file : String) (c : Clause) : Prop where
  clause : Starlark.Prints file blanks (.r .compClause) c.text? fun v => v.bare = c.bare
  each : c.isEach = true →
    Starlark.Prints file blanks (.r .compFor) c.text? fun v => v.bare = c.bare

theorem Clause.Prints.of_each {x e : Expr} (hx : x.Prints file (.binary .bitOr))
    (he : e.Prints file (.binary .or)) (loc : Option Location) :
    (Clause.each x e loc).Prints file := by
  obtain ⟨xs, x', hx', hxs, hxphrase, hxbegins, hxspells⟩ := hx
  obtain ⟨es, e', he', hes, hephrase, hebegins, hespells⟩ := he
  have htext : (Clause.each x e loc).text? = some ("for " ++ x' ++ " in " ++ e') := by
    rw [Clause.text?, hx', he']
    rfl
  have hsources : sources (.spelled .kwFor :: .blank ::
      (xs ++ .blank :: .spelled .kwIn :: .blank :: es)) =
        ("for " ++ x' ++ " in " ++ e').toList := by
    simp only [String.toList_append, ← hxs, ← hes, sources_append, sources_cons,
      List.append_assoc]
    rfl
  have hphrase := (hxphrase.infixed (t := .kwIn) (by decide) hephrase
    hebegins.not_blank).apart (t := .kwFor) (by decide) (hxbegins.not_blank.append _)
  have hspells : Spells file (.r .compFor) (.spelled .kwFor :: .blank ::
      (xs ++ .blank :: .spelled .kwIn :: .blank :: es))
        fun v => v.bare = (Clause.each x e loc).bare := by
    have hvars : Spells file (.r .exprlist) xs fun v => v.bare = x.bare := .r (.left hxspells.level)
    have hin := Spells.spelled .kwIn hespells.level.last.blank
    refine .r ((Spells.spelled .kwFor (hvars.seq hin.blank).blank).build ?_)
    rintro loc ⟨_, x', _, e', _⟩ ⟨hx, he⟩
    dsimp only at hx he ⊢
    rw [Clause.bare, Clause.bare, hx, he]
  exact ⟨⟨_, _, htext, hsources, hphrase, .spelled rfl (by decide) _, .r (.left hspells)⟩,
    fun _ => ⟨_, _, htext, hsources, hphrase, .spelled rfl (by decide) _, hspells⟩⟩

theorem Clause.Prints.of_guard {e : Expr} (he : e.Prints file (.binary .or))
    (loc : Option Location) : (Clause.guard e loc).Prints file := by
  obtain ⟨es, e', he', hes, hephrase, hebegins, hespells⟩ := he
  refine ⟨⟨.spelled .kwIf :: .blank :: es, "if " ++ e', ?_, ?_,
    hephrase.apart (by decide) hebegins.not_blank, .spelled rfl (by decide) _, ?_⟩, nofun⟩
  · rw [Clause.text?, he']
    rfl
  · rw [String.toList_append, ← hes]
    rfl
  · refine .r (.right (.r ((Spells.spelled .kwIf hespells.level.last.blank).build ?_)))
    rintro loc ⟨_, e', _⟩ he
    exact congrArg (Clause.guard · none) he

/-- The clauses after the first one. -/
theorem prints_tailText {cs : List Clause} (h : ∀ c ∈ cs, c.Prints file) :
    ∃ text, Clause.tailText? cs = some text ∧
      Trails file (.star (.r .compClause)) text.toList
        fun vs => vs.map Clause.bare = cs.map Clause.bare := by
  induction cs with
  | nil => exact ⟨"", rfl, .nil .nil⟩
  | cons c cs ih =>
    rw [List.forall_mem_cons] at h
    obtain ⟨⟨⟨ms, c', hc', hms, hphrase, hbegins, hspells⟩, -⟩, hcs⟩ := h
    obtain ⟨text, htext, ns, hns, hnphrase, hncloses, hnspells⟩ := ih hcs
    refine ⟨" " ++ c' ++ text, ?_, .blank :: (ms ++ ns), ?_, ?_, fun rest _ => closes_blank _ rest,
      ?_⟩
    · rw [Clause.tailText?, hc', htext]
      rfl
    · rw [String.toList_append, String.toList_append, ← hms, ← hns, sources_cons,
        sources_append, List.append_assoc]
      rfl
    · exact (hphrase.append hnphrase hncloses).blank (hbegins.append ns)
    · exact (Spells.cons hspells hnspells).blank

/-- What a comprehension collects, and its clauses, in brackets. -/
theorem prints_comprehension {α : Type} {f : Form α} {text? : Option String} {P : α → Prop} {a b : Terminal}
    {c : Clause} {cs : List Clause} (hpair : (a, b) ∈ Terminal.bracketPairs)
    (hbody : Prints file blanks f text? P) (hc : c.Prints file) (hfor : c.isEach = true)
    (hcs : ∀ c ∈ cs, c.Prints file) :
    ∃ ms text tail, text? = some text ∧ Clause.tailText? (c :: cs) = some tail ∧
      sources (.spelled a :: ms) =
        Scan.spelling a ++ (text.toList ++ (tail.toList ++ Scan.spelling b)) ∧
      Phrase (.spelled a :: ms) ∧
      Spells file (.seq (.t a) <| .seq f <| .seq (.r .compFor) <| .seq (.star (.r .compClause)) <|
        .seq (.t b) .eps) (.spelled a :: ms) fun v => P v.2.1 ∧
          (v.2.2.1 :: v.2.2.2.1).map Clause.bare = (c :: cs).map Clause.bare := by
  obtain ⟨bs, text, htext, hbs, hbphrase, -, hbspells⟩ := hbody
  obtain ⟨fs, c', hc', hfs, hfphrase, hfbegins, hfspells⟩ := hc.each hfor
  obtain ⟨tail, htail, ts, hts, htphrase, htcloses, htspells⟩ := prints_tailText hcs
  refine ⟨(bs ++ .blank :: (fs ++ ts)) ++ [Mark.spelled b], text, " " ++ c' ++ tail, htext, ?_, ?_,
    ?_, ?_⟩
  · rw [Clause.tailText?, hc', htail]
    rfl
  · rw [String.toList_append, String.toList_append, ← hbs, ← hfs, ← hts]
    simp only [sources_append, sources_cons, sources_nil, List.append_assoc, List.append_nil]
    rfl
  · have hclauses := (hfphrase.append htphrase htcloses).blank (hfbegins.append ts)
    exact (hbphrase.append hclauses fun rest _ => closes_blank _ rest).enclosed hpair
  · have hclose := htspells.seq (Spells.spelled b (.eps file))
    have hall := Spells.spelled a (hbspells.seq (hfspells.seq hclose).blank)
    simp only [List.append_assoc, List.cons_append]
    refine hall.mono ?_
    rintro ⟨_, _, c', cs', _⟩ ⟨hb, hc, hcs, -⟩
    exact ⟨hb, congrArg₂ List.cons hc hcs⟩

/-- The text of the body is the body. -/
def Body.Prints (file : String) : Body → Prop
  | .item e => e.Prints file .test
  | .entry d => d.Prints file

theorem Expr.Prints.comprehension {b : Body} {cs : List Clause} {isDict : Bool}
    (hdict : b.isEntry = isDict) (hb : b.Prints file) (hcs : ∀ c ∈ cs, c.Prints file)
    (hfirst : cs.head?.any Clause.isEach = true) (loc : Option Location) :
    (Expr.comprehension b cs isDict loc).Prints file .atom := by
  subst hdict
  cases cs with
  | nil => cases hfirst
  | cons c cs =>
    rw [List.forall_mem_cons] at hcs
    cases b with
    | item e =>
      obtain ⟨ms, text, tail, htext, htail, hms, hphrase, hspells⟩ :=
        prints_comprehension (a := .lbracket) (b := .rbracket)
          (by decide) (Expr.Prints.item hb) hcs.1 hfirst hcs.2
      refine ⟨_, "[" ++ text ++ tail ++ "]", ?_, ?_, hphrase, .spelled rfl (by decide) _, ?_⟩
      · rw [Body.isEntry, Expr.text?, Body.text?, htext, htail]
        rfl
      · rw [hms]
        simp only [String.toList_append, List.append_assoc]
        rfl
      · refine .right (.right (.right (.right (.right (.right (.left (hspells.build ?_)))))))
        rintro loc ⟨_, e', c', cs', _⟩ ⟨he, hcs⟩
        dsimp only at he hcs ⊢
        rw [Expr.bare, Expr.bare, Body.bare, Body.bare, he, Clause.bareAll_eq_map,
          Clause.bareAll_eq_map, hcs]
        rfl
    | entry d =>
      obtain ⟨ms, text, tail, htext, htail, hms, hphrase, hspells⟩ :=
        prints_comprehension (a := .lbrace) (b := .rbrace) (by decide) hb hcs.1 hfirst hcs.2
      refine ⟨_, "\x7b" ++ text ++ tail ++ "\x7d", ?_, ?_, hphrase, .spelled rfl (by decide) _, ?_⟩
      · rw [Body.isEntry, Expr.text?, Body.text?, htext, htail]
        rfl
      · rw [hms]
        simp only [String.toList_append, List.append_assoc]
        rfl
      · refine .right (.right (.right (.right (.right (.right (.right (.right
          (hspells.build ?_))))))))
        rintro loc ⟨_, d', c', cs', _⟩ ⟨hd, hcs⟩
        dsimp only at hd hcs ⊢
        rw [Expr.bare, Expr.bare, Body.bare, Body.bare, hd, Clause.bareAll_eq_map,
          Clause.bareAll_eq_map, hcs]
        rfl

end Starlark
