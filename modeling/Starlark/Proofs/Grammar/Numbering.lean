import Starlark.Parser.Parse
import Starlark.Syntax.Occurrence

/-! # The numbers of identifiers

A computation that builds trees makes new identifiers from a counter and passes on those it was
given. How often a number occurs in its result is bounded by how often it was given, plus one if
the counter passed over it; so the occurrences of a parsed file have pairwise different numbers.
-/
namespace Starlark

def numbers (xs : List Identifier) : List Nat := xs.map (·.id)

theorem numbers_append (xs ys : List Identifier) :
    numbers (xs ++ ys) = numbers xs ++ numbers ys := List.map_append

theorem Stmt.occurrencesAll_eq (ss : List Stmt) :
    Stmt.occurrencesAll ss = ss.flatMap Stmt.occurrences := by
  induction ss with
  | nil => rfl
  | cons s ss ih => rw [Stmt.occurrencesAll, ih, List.flatMap_cons]

theorem Expr.occurrencesAll_eq (es : List Expr) :
    Expr.occurrencesAll es = es.flatMap Expr.occurrences := by
  induction es with
  | nil => rfl
  | cons e es ih => rw [Expr.occurrencesAll, ih, List.flatMap_cons]

theorem Entry.occurrencesAll_eq (ds : List Entry) :
    Entry.occurrencesAll ds = ds.flatMap Entry.occurrences := by
  induction ds with
  | nil => rfl
  | cons d ds ih => rw [Entry.occurrencesAll, ih, List.flatMap_cons]

theorem Argument.occurrencesAll_eq (as : List Argument) :
    Argument.occurrencesAll as = as.flatMap Argument.occurrences := by
  induction as with
  | nil => rfl
  | cons a as ih => rw [Argument.occurrencesAll, ih, List.flatMap_cons]

theorem Clause.occurrencesAll_eq (cs : List Clause) :
    Clause.occurrencesAll cs = cs.flatMap Clause.occurrences := by
  induction cs with
  | nil => rfl
  | cons c cs ih => rw [Clause.occurrencesAll, ih, List.flatMap_cons]

def ElifClause.occurrences (c : ElifClause) : List Identifier :=
  c.condition.occurrences ++ Stmt.occurrencesAll c.block

def Subscript.occurrences : Subscript → List Identifier
  | .key e => e.occurrences
  | .range a b c =>
    Expr.occurrencesOpt a ++ Expr.occurrencesOpt b ++ Expr.occurrencesOpt c

theorem elifChain_occurrences (cs : List ElifClause) (b : List Stmt) :
    (elifChain cs b).flatMap Stmt.occurrences =
      cs.flatMap ElifClause.occurrences ++ b.flatMap Stmt.occurrences := by
  induction cs with
  | nil => rfl
  | cons c cs ih =>
    rw [elifChain] at ih ⊢
    simp only [List.foldr_cons, Stmt.occurrences, Stmt.occurrencesAll_eq, ih, List.flatMap_cons,
      List.flatMap_nil, List.append_nil, ElifClause.occurrences, List.append_assoc]

theorem foldChain_occurrences (loc : Option Location) (x : Expr)
    (links : List (BinaryOp × Expr)) :
    (foldChain loc x links).occurrences =
      x.occurrences ++ links.flatMap fun link => link.2.occurrences := by
  rw [foldChain]
  induction links generalizing x with
  | nil => simp
  | cons link links ih =>
    simp only [List.foldl_cons, ih, Expr.occurrences, List.flatMap_cons, List.append_assoc]

theorem parenthesised_occurrences (loc : Option Location) (e : Expr) :
    (Build.parenthesised loc e).occurrences = e.occurrences := by
  unfold Build.parenthesised
  split
  · rfl
  · rfl

theorem subscript_occurrences (loc : Option Location) (e : Expr) (k : Subscript) :
    (Build.subscript loc e k).occurrences = e.occurrences ++ k.occurrences := by
  cases k with
  | key k => rfl
  | range a b c =>
    simp only [Build.subscript, Expr.occurrences, Subscript.occurrences, List.append_assoc]

/-- The identifiers of a meaning that name a variable. -/
def Nonterminal.occurrences : (x : Nonterminal) → x.Meaning → List Identifier
  | .file => Stmt.occurrencesAll
  | .items => Stmt.occurrencesAll
  | .statement => Stmt.occurrencesAll
  | .line => Stmt.occurrencesAll
  | .smalls => Stmt.occurrencesAll
  | .suite => Stmt.occurrencesAll
  | .block => Stmt.occurrencesAll
  | .elseClause => Stmt.occurrencesAll
  | .small => Stmt.occurrences
  | .augmentedOp => fun _ => []
  | .operator _ => fun _ => []
  | .loadArgs => fun bs => bs.map (·.localName)
  | .loadArg => fun b => [b.localName]
  | .stringToken => fun _ => []
  | .elifs => fun cs => cs.flatMap ElifClause.occurrences
  | .elifClause => ElifClause.occurrences
  | .parameters => fun ps => ps.flatMap Parameter.occurrences
  | .parameterRest => fun ps => ps.flatMap Parameter.occurrences
  | .parameter => Parameter.occurrences
  | .exprList => Expr.occurrences
  | .targetList => Expr.occurrences
  | .expr _ => Expr.occurrences
  | .exprRest => Expr.occurrencesAll
  | .targetRest => Expr.occurrencesAll
  | .rest _ => fun links => links.flatMap fun link => link.2.occurrences
  | .unaryOp => fun _ => []
  | .arguments => Argument.occurrencesAll
  | .argumentRest => Argument.occurrencesAll
  | .argument => Argument.occurrences
  | .subscript => Subscript.occurrences
  | .entry => Entry.occurrences
  | .entryRest => Entry.occurrencesAll
  | .clauses => Clause.occurrencesAll
  | .clause => Clause.occurrences
  | .compFor => Clause.occurrences

def Symbol.occurrences : (s : Symbol) → s.Meaning → List Identifier
  | .t _ => fun _ => []
  | .n x => x.occurrences

/-- The occurrences of the meanings of a right side, from left to right. -/
def Meanings.occurrences : (ss : List Symbol) → Meanings ss → List Identifier
  | [] => fun _ => []
  | s :: ss => fun vs => s.occurrences vs.1 ++ Meanings.occurrences ss vs.2

attribute [simp] Stmt.occurrencesAll_eq Expr.occurrencesAll_eq Entry.occurrencesAll_eq
  Argument.occurrencesAll_eq Clause.occurrencesAll_eq elifChain_occurrences
  foldChain_occurrences parenthesised_occurrences subscript_occurrences
  Stmt.occurrences Expr.occurrences Expr.occurrencesOpt Entry.occurrences Argument.occurrences
  Clause.occurrences Body.occurrences Parameter.occurrences ElifClause.occurrences
  Subscript.occurrences Nonterminal.occurrences Symbol.occurrences Meanings.occurrences

namespace Build
variable {α β : Type}

/-- One if the counter passed over a number, else nothing. -/
def passed (n n' : Notes) (i : Nat) : Nat := if n.nextId ≤ i ∧ i < n'.nextId then 1 else 0

/-- A computation whose result, if there is one, has the given numbers and new ones, each at most
once more. The counter only grows. -/
def Numbers (given : List Nat) (m : Build α) (result : α → List Nat) : Prop :=
  ∀ n r n', m.run.run n = (r, n') → n.nextId ≤ n'.nextId ∧
    ∀ a, r = .ok a → ∀ i, (result a).count i ≤ given.count i + passed n n' i

theorem run_bind (m : Build α) (k : α → Build β) (n : Notes) :
    (m >>= k).run.run n = match m.run.run n with
      | (.ok a, n') => (k a).run.run n'
      | (.error fault, n') => (.error fault, n') := by
  simp only [ExceptT.run_bind, StateT.run_bind]
  rcases m.run.run n with ⟨_ | _, _⟩ <;> rfl

theorem of_run_bind {m : Build α} {k : α → Build β} {n n' : Notes} {b : β}
    (h : (m >>= k).run.run n = (.ok b, n')) :
    ∃ a n₁, m.run.run n = (.ok a, n₁) ∧ (k a).run.run n₁ = (.ok b, n') := by
  rw [run_bind] at h
  split at h
  · rename_i a n₁ hm
    exact ⟨a, n₁, hm, h⟩
  · cases h

namespace Numbers
variable {given : List Nat} {m : Build α} {ids : α → List Nat} {ids' : β → List Nat}

theorem pure {a : α} (h : ∀ i, (ids a).count i ≤ given.count i) :
    Numbers given (Pure.pure a) ids := by
  rintro n _ _ ⟨⟩
  refine ⟨Nat.le_refl _, ?_⟩
  rintro _ ⟨⟩ i
  exact Nat.le_trans (h i) (Nat.le_add_right _ _)

theorem bind {k : α → Build β} (hm : Numbers given m ids)
    (hk : ∀ a, Numbers (ids a) (k a) ids') : Numbers given (m >>= k) ids' := by
  intro n r n' h
  rw [run_bind] at h
  cases hrun : m.run.run n with
  | mk r₁ n₁ =>
    obtain ⟨hle, hcount⟩ := hm n r₁ n₁ hrun
    cases r₁ with
    | error fault =>
      simp only [hrun] at h
      cases h
      exact ⟨hle, fun _ hr => by cases hr⟩
    | ok a =>
      simp only [hrun] at h
      obtain ⟨hle', hcount'⟩ := hk a n₁ r n' h
      refine ⟨Nat.le_trans hle hle', fun b hb i => ?_⟩
      have h₁ := hcount a rfl i
      have h₂ := hcount' b hb i
      unfold passed at *
      split at h₁ <;> split at h₂ <;> split <;> omega

theorem newIdentifier (name : String) (loc : Option Location) :
    Numbers given (newIdentifier name loc) fun x => x.id :: given := by
  rintro n _ _ ⟨⟩
  refine ⟨Nat.le_succ _, ?_⟩
  rintro _ ⟨⟩ i
  simp only [List.count_cons, passed, beq_iff_eq]
  split <;> split <;> omega

/-- What leaves the counter alone passes on what is given. -/
theorem keep (h : ∀ n r n', m.run.run n = (r, n') → n'.nextId = n.nextId) :
    Numbers given m fun _ => given := by
  intro n r n' hrun
  exact ⟨Nat.le_of_eq (h n r n' hrun).symm, fun _ _ i => Nat.le_add_right _ _⟩

/-- What is given besides is passed on. -/
theorem frame (hm : Numbers [] m ids) : Numbers given m fun a => given ++ ids a := by
  intro n r n' h
  obtain ⟨hle, hcount⟩ := hm n r n' h
  refine ⟨hle, fun a ha i => ?_⟩
  have := hcount a ha i
  rw [List.count_nil] at this
  rw [List.count_append]
  omega

theorem report (message : String) (loc : Option Location) :
    Numbers given (report message loc) fun _ => given := by
  refine keep ?_
  rintro n _ _ ⟨⟩
  rfl

theorem quote (e : Expr) : Numbers given (quote e) fun _ => given := by
  refine keep ?_
  intro n r n' h
  unfold Build.quote at h
  split at h
  · cases h
    rfl
  · cases h
    rfl

theorem string (file : String) (t : Token) : Numbers given (string file t) fun _ => given := by
  refine keep ?_
  rintro n _ _ ⟨⟩
  rfl

theorem integer (file : String) (t : Token) :
    Numbers given (integer file t) fun e => numbers e.occurrences := by
  unfold Build.integer
  refine .bind (.keep ?_) fun value => .pure fun i => Nat.zero_le _
  intro n r n' h
  cases hd : decodeInteger t.text with
  | error fault =>
    rw [hd] at h
    cases h
    rfl
  | ok value =>
    rw [hd] at h
    cases h
    rfl

end Numbers

/-- Numbers of what symbols stand for, alone and in a sequence, that actions pass on with new ones. -/
structure Renumbers (file : String) (N : (s : Symbol) → s.Meaning → List Nat)
    (Ns : (ss : List Symbol) → Meanings ss → List Nat) : Prop where
  leaf (t : Token) : N (.t t.kind) t = []
  nil : Ns [] () = []
  cons {s : Symbol} {ss : List Symbol} {v : s.Meaning} {vs : Meanings ss} :
    Ns (s :: ss) (v, vs) = N s v ++ Ns ss vs
  action (span : Option Span) (p : Production) (vs : Meanings p.rhs) :
    Numbers (Ns p.rhs vs) (Build.action file span p vs) (N (.n p.lhs))

mutual

/-- What a tree stands for has new numbers. -/
theorem Renumbers.tree {file : String} {N : (s : Symbol) → s.Meaning → List Nat}
    {Ns : (ss : List Symbol) → Meanings ss → List Nat} (h : Renumbers file N Ns) :
    ∀ {s : Symbol} (x : Tree s), Numbers [] (x.build file) fun v => N s v.1
  | _, .leaf t => by
    rw [Tree.build]
    exact .pure fun i => Nat.le_of_eq (congrArg (List.count i) (h.leaf t))
  | _, .node p xs => by
    rw [Tree.build]
    exact .bind (h.forest xs) fun v =>
      .bind (h.action v.2 p v.1) fun a => .pure fun _ => Nat.le_refl _

theorem Renumbers.forest {file : String} {N : (s : Symbol) → s.Meaning → List Nat}
    {Ns : (ss : List Symbol) → Meanings ss → List Nat} (h : Renumbers file N Ns) :
    ∀ {ss : List Symbol} (xs : Forest ss), Numbers [] (xs.build file) fun vs => Ns ss vs.1
  | _, .nil => by
    rw [Forest.build]
    exact .pure fun i => Nat.le_of_eq (congrArg (List.count i) h.nil)
  | _, .cons x xs => by
    rw [Forest.build]
    refine .bind (h.tree x) fun v => ?_
    refine .bind (.frame (h.forest xs)) fun vs => .pure fun i => ?_
    exact Nat.le_of_eq (congrArg (List.count i) h.cons)

end

/-- The given numbers of the meanings of a right side. -/
abbrev given (ss : List Symbol) (vs : Meanings ss) : List Nat :=
  numbers (Meanings.occurrences ss vs)

theorem numbers_call {ns : List Nat} (loc : Option Location) (f : Expr) (as : List Argument)
    (h : ∀ i, (numbers (f.occurrences ++ Argument.occurrencesAll as)).count i ≤ ns.count i) :
    Numbers ns (call loc f as) fun e => numbers e.occurrences := by
  unfold call
  split
  · exact .bind (.report _ _) fun _ => .pure h
  · exact .pure h

theorem numbers_keywordArgument {ns : List Nat} (loc : Option Location) (name value : Expr)
    (h : ∀ i, (numbers value.occurrences).count i ≤ ns.count i) :
    Numbers ns (keywordArgument loc name value) fun a => numbers a.occurrences := by
  unfold keywordArgument
  split
  · exact .pure h
  · refine .bind (.quote _) fun _ => .bind (.report _ _) fun _ =>
      .bind (.newIdentifier _ _) fun x => .pure fun i => ?_
    exact Nat.le_trans (h i) (List.count_le_count_cons)

theorem numbers_loadBinding {ns : List Nat} (localName : Identifier) (exported : StringLiteral)
    (h : ∀ i, [localName.id].count i ≤ ns.count i) :
    Numbers ns (loadBinding localName exported) fun b => [b.localName.id] := by
  unfold loadBinding
  split
  · refine .bind (.report _ _) fun _ => .bind (.newIdentifier _ _) fun x => .pure fun i => ?_
    exact Nat.le_trans (h i) (List.count_le_count_cons)
  · refine .bind (.newIdentifier _ _) fun x => .pure fun i => ?_
    exact Nat.le_trans (h i) (List.count_le_count_cons)

theorem numbers_load {ns : List Nat} (file : String) (loc : Option Location) (source : Token)
    (bs : List LoadBinding)
    (h : ∀ i, (numbers (bs.map (·.localName))).count i ≤ ns.count i) :
    Numbers ns (load file loc source bs) fun s => numbers s.occurrences := by
  unfold load
  split
  · exact .bind (.report _ _) fun _ => .bind (.string _ _) fun _ => .pure h
  · exact .bind (.string _ _) fun _ => .pure h

/-- The action of a rule passes on the numbers of its right side. -/
theorem numbers_action (file : String) (span : Option Span) (p : Production)
    (vs : Meanings p.rhs) :
    Numbers (given p.rhs vs) (action file span p vs)
      fun a => numbers (p.lhs.occurrences a) := by
  cases p
  case defNone | defSome | parameterMandatory | parameterOptional | parameterStar
      | parameterStarStar | dot | name =>
    refine .bind (.newIdentifier _ _) fun x => .pure fun i => ?_
    simp [given, numbers, List.count_cons]
  case loadSomeComma | loadSome =>
    refine numbers_load file _ _ vs.2.2.2.1 fun i => ?_
    simp [given, numbers]
  case loadNoneComma | loadNone =>
    exact numbers_load file _ _ [] fun i => Nat.zero_le _
  case loadPlain | loadAlias =>
    refine .bind (.string _ _) fun name => .bind (.newIdentifier _ _) fun x => ?_
    refine numbers_loadBinding x name fun i => ?_
    simp [List.count_cons]
  case callNone =>
    refine numbers_call _ vs.1 [] fun i => ?_
    simp [given, numbers]
  case callSome =>
    refine numbers_call _ vs.1 vs.2.2.1 fun i => ?_
    simp [given, numbers]
  case argumentKeyword =>
    refine numbers_keywordArgument _ _ _ fun i => ?_
    simp [given, numbers]
  case decimal | hexadecimal | octal =>
    exact .integer file _
  case string | longString =>
    refine .bind (.string _ _) fun _ => .pure fun i => ?_
    exact Nat.zero_le _
  all_goals
    refine .pure fun i => ?_
    simp [given, numbers, List.count_append]
  -- What is computed first comes first, in another order than in the text.
  case assign | augmentedAssign | compFor | listCompFor | dictCompFor =>
    exact Nat.le_of_eq (Nat.add_comm _ _)
  case forLoop | conditional =>
    exact Nat.le_of_eq (Nat.add_left_comm _ _ _)
  case listCompClauses | dictCompClauses =>
    exact Nat.le_of_eq ((Nat.add_assoc _ _ _).symm.trans (Nat.add_comm _ _))

theorem renumbers_occurrences (file : String) :
    Renumbers file (fun s v => numbers (s.occurrences v)) fun ss vs =>
      numbers (Meanings.occurrences ss vs) where
  leaf _ := rfl
  nil := rfl
  cons := numbers_append _ _
  action := numbers_action file

end Build

/-- Building a tree never turns the counter back, and its result has new numbers. -/
theorem parseStatements_numbers (text file : String) (firstId : Nat) :
    firstId ≤ (parseStatements text file firstId).2.nextId ∧
      ∀ ss, (parseStatements text file firstId).1 = .ok ss →
        ∀ i, (numbers (Stmt.occurrencesAll ss)).count i ≤
          if firstId ≤ i ∧ i < (parseStatements text file firstId).2.nextId then 1 else 0 := by
  unfold parseStatements
  cases hd : Parser.derive text.toList with
  | error e => exact ⟨Nat.le_refl _, fun _ h => by cases h⟩
  | ok tree =>
    cases hb : (tree.build file).run.run ⟨firstId, [], []⟩ with
    | mk r notes =>
      obtain ⟨hle, hcount⟩ := (Build.renumbers_occurrences file).tree tree _ _ _ hb
      cases r with
      | error fault =>
        simp only [hb]
        exact ⟨hle, fun _ h => by cases h⟩
      | ok v =>
        simp only [hb]
        refine ⟨hle, ?_⟩
        rintro _ ⟨⟩ i
        simpa [Build.passed, Symbol.occurrences, Nonterminal.occurrences] using hcount v rfl i

/-- The occurrences of a parsed source have different numbers, all from the interval that the
parse has used up. -/
theorem parseStatements_nodup {text file : String} {firstId : Nat} {ss : List Stmt}
    {notes : Notes} (h : parseStatements text file firstId = (.ok ss, notes)) :
    (numbers (Stmt.occurrencesAll ss)).Nodup ∧
      ∀ i ∈ numbers (Stmt.occurrencesAll ss), firstId ≤ i ∧ i < notes.nextId := by
  have hcount := (parseStatements_numbers text file firstId).2 ss (congrArg Prod.fst h)
  rw [h] at hcount
  refine ⟨List.nodup_iff_count.mpr fun i => ?_, fun i hi => ?_⟩
  · have h := hcount i
    split at h
    · exact h
    · exact Nat.le_trans h (Nat.zero_le 1)
  · have h := Nat.lt_of_lt_of_le (List.count_pos_iff.mpr hi) (hcount i)
    split at h
    · assumption
    · cases h

end Starlark
