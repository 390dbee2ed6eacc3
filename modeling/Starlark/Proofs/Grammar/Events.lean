import Starlark.Proofs.Diagnostic.Wording
import Starlark.Proofs.Grammar.Located
import Starlark.Proofs.Grammar.Numbering
import Starlark.Proofs.Literal.Places

/-! # The literals of a parse

While a tree is built, string tokens are decoded one after the other, and nothing else is reported
about escapes: the other messages begin in another way, and there are no other events. The notes of
escapes that mean nothing have an end of their own.
-/
namespace Starlark

/-- How the note of an escape that means nothing ends. -/
def escapeNoteEnding : String := "passing the flag --" ++ Piece.restrictStringEscapes ++ "=false"

/-- Is this the note of an escape that means nothing? -/
def Diagnostic.IsEscapeNote (d : Diagnostic) : Prop :=
  escapeNoteEnding.toList <:+ d.message.toList

instance : DecidablePred Diagnostic.IsEscapeNote := fun d =>
  inferInstanceAs (Decidable (escapeNoteEnding.toList <:+ d.message.toList))

theorem Piece.isEscapeNote_of_event? {file : String} {placed : Point × Piece} {d : Diagnostic}
    (h : event? file placed = some d) : d.IsEscapeNote := by
  have hsplit : ". You can enable unknown escape sequences by passing the flag --" =
      ". You can enable unknown escape sequences by " ++ "passing the flag --" := by
    decide
  unfold event? at h
  split at h
  · cases h
    unfold Diagnostic.IsEscapeNote escapeNoteEnding
    rw [hsplit]
    simp only [String.append_assoc, String.toList_append]
    exact ((List.suffix_append _ _).trans (List.suffix_append _ _)).trans (List.suffix_append _ _)
  · cases h

theorem decodeString_events (file : String) (start : Point) (text : List Char) :
    ∀ d ∈ (decodeString file start text).events, d.IsEscapeNote := by
  intro d hd
  simp only [decodeString] at hd
  split at hd
  · cases hd
  · obtain ⟨placed, -, h⟩ := List.mem_filterMap.mp hd
    exact Piece.isEscapeNote_of_event? h

/-- A token as a string literal. -/
def Token.decoded (t : Token) (file : String) : DecodedString :=
  decodeString file t.span.start t.text

/-- Is a token a string, of either kind? -/
def Token.IsString (t : Token) : Prop := t.kind = .string ∨ t.kind = .longString

/-- How the messages about arguments out of order begin. -/
def argumentFronts : List String := ["**kwarg ", "positional ", "keyword ", "*arg "]

theorem misplacedArgument?_beginsWith {as : List Argument} {keyword star starStar : Bool}
    {message : String} {a : Argument}
    (h : misplacedArgument? keyword star starStar as = some (message, a)) :
    BeginsWith argumentFronts message := by
  induction as generalizing keyword star starStar with
  | nil => cases h
  | cons b as ih =>
    rw [misplacedArgument?] at h
    split at h
    · cases h
      exact ⟨"**kwarg ", by decide, by decide⟩
    · split at h
      · split at h
        · cases h
          exact ⟨"positional ", by decide, by decide⟩
        · exact ih h
      · split at h
        · cases h
          exact .append ⟨"keyword ", by decide, by decide⟩ _
        · exact ih h
      · split at h
        · cases h
          exact ⟨"*arg ", by decide, by decide⟩
        · exact ih h
      · exact ih h

/-- Are the strings that a meaning is made of among some tokens? -/
def Nonterminal.Carries (P : Token → Prop) : (x : Nonterminal) → x.Meaning → Prop
  | .stringToken => P
  | _ => fun _ => True

def Symbol.Carries (P : Token → Prop) : (s : Symbol) → s.Meaning → Prop
  | .t kind => fun t => kind = .string ∨ kind = .longString → P t
  | .n x => x.Carries P

def Meanings.Carries (P : Token → Prop) : (ss : List Symbol) → Meanings ss → Prop
  | [] => fun _ => True
  | s :: ss => fun vs => s.Carries P vs.1 ∧ Meanings.Carries P ss vs.2

namespace Build
variable {α β : Type} {file : String} {P : Token → Prop}

/-- A computation that decodes some tokens with a property, one after the other, and reports
nothing else about escapes. -/
def Decodes (file : String) (P : Token → Prop) (m : Build α) : Prop :=
  ∀ n, ∃ literals : List Token, (∀ t ∈ literals, P t) ∧
    (m.run.run n).2.events = n.events ++ literals.flatMap (fun t => (t.decoded file).events) ∧
    (m.run.run n).2.errors.filter (·.IsUnsupported) =
      n.errors.filter (·.IsUnsupported) ++ literals.flatMap fun t => (t.decoded file).errors

namespace Decodes
variable {m : Build α}

theorem nothing (h : ∀ n, (m.run.run n).2.events = n.events ∧
    (m.run.run n).2.errors.filter (·.IsUnsupported) = n.errors.filter (·.IsUnsupported)) :
    Decodes file P m := by
  intro n
  exact ⟨[], List.forall_mem_nil _, by simp [h n], by simp [h n]⟩

theorem pure (a : α) : Decodes file P (Pure.pure a : Build α) := nothing fun _ => ⟨rfl, rfl⟩

theorem bind {Q : α → Prop} {k : α → Build β} (hm : Decodes file P m) (hq : Returns m Q)
    (hk : ∀ a, Q a → Decodes file P (k a)) : Decodes file P (m >>= k) := by
  intro n
  obtain ⟨literals, hliterals, hevents, herrors⟩ := hm n
  rw [run_bind]
  rcases hrun : m.run.run n with ⟨fault | a, n'⟩
  · rw [hrun] at hevents herrors
    exact ⟨literals, hliterals, hevents, herrors⟩
  · rw [hrun] at hevents herrors
    obtain ⟨literals', hliterals', hevents', herrors'⟩ := hk a (hq n a n' hrun) n'
    refine ⟨literals ++ literals', List.forall_mem_append.mpr ⟨hliterals, hliterals'⟩, ?_, ?_⟩
    · rw [hevents', hevents, List.flatMap_append, List.append_assoc]
    · rw [herrors', herrors, List.flatMap_append, List.append_assoc]

/-- Where what follows does not depend on the result. -/
theorem andThen {k : α → Build β} (hm : Decodes file P m) (hk : ∀ a, Decodes file P (k a)) :
    Decodes file P (m >>= k) :=
  hm.bind (.trivial m) fun a _ => hk a

theorem report {fronts : List String} {message : String} (h : BeginsWith fronts message)
    (hapart : ∀ t ∈ fronts, ¬ t.toList <+: "escape sequence not implemented: ".toList ∧
      ¬ "escape sequence not implemented: ".toList <+: t.toList) (loc : Option Location) :
    Decodes file P (report message loc) := by
  refine nothing fun n => ⟨rfl, ?_⟩
  have hd : ¬ Diagnostic.IsUnsupported { message, loc } := h.not_begins hapart
  exact (List.filter_append ..).trans (by simp [hd])

theorem newIdentifier (name : String) (loc : Option Location) :
    Decodes file P (newIdentifier name loc) := nothing fun _ => ⟨rfl, rfl⟩

theorem quote (e : Expr) : Decodes file P (quote e) := by
  refine nothing fun n => ?_
  unfold Build.quote
  split
  · exact ⟨rfl, rfl⟩
  · exact ⟨rfl, rfl⟩

theorem string {t : Token} (ht : P t) : Decodes file P (string file t) := by
  intro n
  have herrors : (t.decoded file).errors.filter (·.IsUnsupported) = (t.decoded file).errors := by
    rw [Token.decoded, errors_decodeString, List.filter_filter]
    simp
  refine ⟨[t], List.forall_mem_singleton.mpr ht, ?_, ?_⟩
  · rw [List.flatMap_singleton]
    rfl
  · rw [List.flatMap_singleton, ← herrors]
    exact List.filter_append ..

theorem integer (t : Token) : Decodes file P (integer file t) := by
  refine .andThen (nothing fun n => ?_) fun value => .pure _
  cases decodeInteger t.text <;> exact ⟨rfl, rfl⟩

theorem call (loc : Option Location) (f : Expr) (as : List Argument) :
    Decodes file P (call loc f as) := by
  unfold Build.call
  split
  · next h =>
    exact .andThen (.report (misplacedArgument?_beginsWith h) (by decide) _) fun _ => .pure _
  · exact .pure _

theorem keywordArgument (loc : Option Location) (name value : Expr) :
    Decodes file P (keywordArgument loc name value) := by
  unfold Build.keywordArgument
  split
  · exact .pure _
  · have hfront : ∀ text, BeginsWith ["keyword "]
        ("keyword argument must be an identifier, not '" ++ text ++ "'") :=
      fun _ => .append (.append ⟨"keyword ", by decide, by decide⟩ _) _
    exact .andThen (.quote _) fun _ => .andThen (.report (hfront _) (by decide) _) fun _ =>
      .andThen (.newIdentifier _ _) fun _ => .pure _

theorem loadBinding (localName : Identifier) (exported : StringLiteral) :
    Decodes file P (loadBinding localName exported) := by
  unfold Build.loadBinding
  split
  · have hfront : ∀ text, BeginsWith ["symbol "]
        ("symbol '" ++ text ++ "' is private and cannot be imported") :=
      fun _ => .append (.append ⟨"symbol ", by decide, by decide⟩ _) _
    exact .andThen (.report (hfront _) (by decide) _) fun _ =>
      .andThen (.newIdentifier _ _) fun _ => .pure _
  · exact .andThen (.newIdentifier _ _) fun _ => .pure _

theorem load (loc : Option Location) {source : Token} (hsource : P source)
    (bs : List LoadBinding) : Decodes file P (load file loc source bs) := by
  unfold Build.load
  split
  · have hfront : BeginsWith ["expected "] "expected at least one symbol to load" :=
      ⟨"expected ", by decide, by decide⟩
    exact .andThen (.report hfront (by decide) _) fun _ =>
      .andThen (.string hsource) fun _ => .pure _
  · exact .andThen (.string hsource) fun _ => .pure _

theorem action (span : Option Span) (p : Production) (vs : Meanings p.rhs)
    (h : Meanings.Carries P p.rhs vs) : Decodes file P (action file span p vs) := by
  cases p
  case defNone | defSome | parameterMandatory | parameterOptional | parameterStar
      | parameterStarStar | dot | name =>
    exact .andThen (.newIdentifier _ _) fun _ => .pure _
  case loadSomeComma | loadSome | loadNoneComma | loadNone => exact .load _ h.2.2.1 _
  case loadPlain =>
    exact .andThen (.string h.1) fun _ => .andThen (.newIdentifier _ _) fun _ => .loadBinding _ _
  case loadAlias =>
    exact .andThen (.string h.2.2.1) fun _ =>
      .andThen (.newIdentifier _ _) fun _ => .loadBinding _ _
  case callNone | callSome => exact .call _ _ _
  case argumentKeyword => exact .keywordArgument _ _ _
  case decimal | hexadecimal | octal => exact .integer _
  case string => exact .andThen (.string (h.1 (.inl rfl))) fun _ => .pure _
  case longString => exact .andThen (.string (h.1 (.inr rfl))) fun _ => .pure _
  all_goals exact .pure _

end Decodes

theorem action_carries (file : String) (span : Option Span) (p : Production) (vs : Meanings p.rhs)
    (h : Meanings.Carries P p.rhs vs) : Returns (action file span p vs) (p.lhs.Carries P) := by
  cases p
  case stringShort => exact .pure (h.1 (.inl rfl))
  case stringLong => exact .pure (h.1 (.inr rfl))
  all_goals exact fun _ _ _ _ => True.intro

theorem keeps_carries (file : String) (P : Token → Prop) :
    Keeps file (fun t => t.IsString → P t) (fun s => s.Carries P) (Meanings.Carries P) where
  leaf _ ht := ht
  nil := True.intro
  cons hv hvs := ⟨hv, hvs⟩
  action span p vs := action_carries file span p vs

end Build

mutual

/-- A build decodes strings of the tree. -/
theorem Tree.build_decodes (file : String) {P : Token → Prop} : ∀ {s : Symbol} (tree : Tree s),
    (∀ t ∈ tree.tokens, t.IsString → P t) → Build.Decodes file P (tree.build file)
  | _, .leaf _, _ => .pure _
  | _, .node p xs, h => by
    rw [Tree.build]
    exact .bind (Forest.build_decodes file xs h) ((Build.keeps_carries file P).forest xs h) fun v hv =>
      .andThen (.action v.2 p v.1 hv) fun _ => .pure _

theorem Forest.build_decodes (file : String) {P : Token → Prop} :
    ∀ {ss : List Symbol} (xs : Forest ss), (∀ t ∈ xs.tokens, t.IsString → P t) →
      Build.Decodes file P (xs.build file)
  | _, .nil, _ => .pure _
  | _, .cons x xs, h => by
    rw [Forest.tokens, List.forall_mem_append] at h
    rw [Forest.build]
    exact .andThen (Tree.build_decodes file x h.1) fun _ =>
      .andThen (Forest.build_decodes file xs h.2) fun _ => .pure _

end

/-- A parse reports about escapes what it finds in strings of the source, one after the other. -/
theorem parseStatements_decodes (text file : String) (firstId : Nat) :
    ∃ literals : List Token, (∀ t ∈ literals, t.IsString ∧
        ∃ tree, Parser.derive text.toList = .ok tree ∧ t ∈ tree.tokens) ∧
      (parseStatements text file firstId).2.events =
        literals.flatMap (fun t => (t.decoded file).events) ∧
      (parseStatements text file firstId).2.errors.filter (·.IsUnsupported) =
        literals.flatMap fun t => (t.decoded file).errors := by
  unfold parseStatements
  cases hderive : Parser.derive text.toList with
  | error e => exact ⟨[], List.forall_mem_nil _, rfl, rfl⟩
  | ok tree =>
    obtain ⟨literals, hliterals, hevents, herrors⟩ := tree.build_decodes file
      (P := fun t => t.IsString ∧ ∃ tree', Except.ok tree = .ok tree' ∧ t ∈ tree'.tokens)
      (fun t ht hstring => ⟨hstring, tree, rfl, ht⟩) ⟨firstId, [], []⟩
    refine ⟨literals, hliterals, ?_, ?_⟩
    · rcases hrun : (tree.build file).run.run ⟨firstId, [], []⟩ with ⟨fault | ⟨ss, span⟩, notes⟩
      · simp only [hrun] at hevents ⊢
        exact hevents
      · simp only [hrun] at hevents ⊢
        exact hevents
    · rcases hrun : (tree.build file).run.run ⟨firstId, [], []⟩ with ⟨fault | ⟨ss, span⟩, notes⟩
      · simp only [hrun] at herrors ⊢
        exact herrors
      · simp only [hrun] at herrors ⊢
        exact herrors

/-- The events of a parse are notes of escapes that mean nothing. -/
theorem parseStatements_events (text file : String) (firstId : Nat) :
    ∀ d ∈ (parseStatements text file firstId).2.events, d.IsEscapeNote := by
  obtain ⟨literals, -, hevents, -⟩ := parseStatements_decodes text file firstId
  intro d hd
  rw [hevents] at hd
  obtain ⟨t, -, ht⟩ := List.mem_flatMap.mp hd
  exact decodeString_events file t.span.start t.text d ht

end Starlark
