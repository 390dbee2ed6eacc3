import Starlark.Proofs.Resolve.Trace

/-! # Every tree follows its findings

By induction on the tree. The frame of a block is complete when the visit of the block begins, so
a target is always bound by the innermost frame; the statements of a block keep that as a
hypothesis, and a function or comprehension opens a block where it holds by construction.
-/
namespace Starlark

/-- Does a frame bind every name of some declarations? -/
def Frame.Holds (f : Frame) (ds : List Declared) : Prop :=
  ∀ x, .bound x ∈ ds → x.name ∈ f.names

theorem Frame.holds_append {f : Frame} {ds es : List Declared} :
    f.Holds (ds ++ es) ↔ f.Holds ds ∧ f.Holds es := by
  simp only [Holds, List.mem_append, or_imp, forall_and]

theorem Frame.holds_bound {f : Frame} {xs : List Identifier} :
    f.Holds (xs.map .bound) ↔ ∀ x ∈ xs, x.name ∈ f.names := by
  simp [Holds]

/-- A frame made of the names of a block holds what the block declares. -/
theorem Frame.holds_of_bindings {f : Frame} {ss : List Stmt}
    (h : ∀ x ∈ Stmt.bindings ss, x.name ∈ f.names) : f.Holds (Stmt.declaredAll ss) := by
  intro x hx
  exact h x (List.mem_filterMap.mpr ⟨.bound x, hx, rfl⟩)

theorem Clause.bindings_cons (c : Clause) (cs : List Clause) :
    Clause.bindings (c :: cs) = Clause.bindings [c] ++ Clause.bindings cs := by
  cases c <;> simp [bindings]

namespace Resolve
variable {settings : Settings}

theorem isStrict_inner (names : List String) (legacy : Bool) :
    Declarations.isStrict ⟨.inner, names⟩ legacy = false := rfl

/-- A function or comprehension: a block that binds its names, visited and closed again. -/
theorem follows_inner {f g : Frame} {fs : List Frame} {n : Nat}
    {F : Declarations → Declarations} {ds : List Declared} {k : Resolve Unit}
    {es : List Finding} (hF : ∀ d, F d = ds.foldl Declarations.take d)
    (scope_eq : g.scope = .inner)
    (names_eq : ∀ x, x ∈ g.names ↔ x ∈ (ds.filterMap Declared.identifier?).map (·.name))
    (hk : Follows settings ⟨g :: f :: fs, n⟩ k es ⟨g :: f :: fs, n⟩) :
    Follows settings ⟨f :: fs, n⟩
      (openBlock .inner >>= fun _ => declaring F >>= fun _ => k >>= fun _ => closeBlock)
      ((ds.filterMap Declared.note?).map .noted ++ es) ⟨f :: fs, n⟩ := by
  have hd : Follows settings ⟨⟨.inner, []⟩ :: f :: fs, n⟩ (declaring F) _ ⟨g :: f :: fs, n⟩ :=
    .declaring hF scope_eq.symm fun x => by simp [names_eq]
  have h := (Follows.openBlock .inner).bind (hd.bind (hk.bind Follows.closeBlock))
  simpa only [isStrict_inner, Declared.errors_lenient, List.nil_append, List.append_nil] using h

theorem foldl_bound_note (xs : List Identifier) :
    (xs.map Declared.bound).filterMap Declared.note? = [] := by
  simp [List.filterMap_map, Function.comp_def, Declared.note?]

mutual

/-- An expression follows its findings from and to any place inside a block. -/
theorem follows_expr (known : settings.env.KnownFlags) (f : Frame) (fs : List Frame)
    (n : Nat) : ∀ e : Expr,
    Follows settings ⟨f :: fs, n⟩ (expr settings e) (e.findings (f :: fs)) ⟨f :: fs, n⟩
  | .ident x => by
    rw [expr, Expr.findings]
    exact .reference known x
  | .int _ _ => by
    rw [expr, Expr.findings]
    exact .done
  | .str _ => by
    rw [expr, Expr.findings]
    exact .done
  | .list es _ _ => by
    rw [expr, Expr.findings]
    exact follows_exprs known f fs n es
  | .dict ds _ => by
    rw [expr, Expr.findings]
    exact follows_entries known f fs n ds
  | .binary x _ y _ => by
    rw [expr, Expr.findings]
    exact (follows_expr known f fs n x).bind (follows_expr known f fs n y)
  | .unary _ x _ => by
    rw [expr, Expr.findings]
    exact follows_expr known f fs n x
  | .conditional t c e _ => by
    rw [expr, Expr.findings, List.append_assoc]
    exact (follows_expr known f fs n c).bind
      ((follows_expr known f fs n t).bind (follows_expr known f fs n e))
  | .dot o _ _ => by
    rw [expr, Expr.findings]
    exact follows_expr known f fs n o
  | .index o k _ => by
    rw [expr, Expr.findings]
    exact (follows_expr known f fs n o).bind (follows_expr known f fs n k)
  | .slice o a b c _ => by
    rw [expr, Expr.findings, List.append_assoc, List.append_assoc]
    exact (follows_expr known f fs n o).bind ((follows_optional known f fs n a).bind
      ((follows_optional known f fs n b).bind (follows_optional known f fs n c)))
  | .call g as _ => by
    rw [expr, Expr.findings]
    exact (follows_expr known f fs n g).bind (follows_arguments known f fs n as)
  | .comprehension b cs _ _ => by
    rw [expr, Expr.findings]
    have hb : ∀ x ∈ Clause.bindings cs, x.name ∈ (Clause.frame cs).names := by
      intro x hx
      exact List.mem_map_of_mem hx
    have hk := (follows_clauses known (Clause.frame cs) (f :: fs) n cs hb).bind
      (follows_body known (Clause.frame cs) (f :: fs) n b)
    have h := follows_inner (fun d => Declarations.collectClauses_eq d cs) rfl
      (fun x => by rw [Declared.identifiers_bound]; rfl) hk
    simpa only [foldl_bound_note, List.map_nil, List.nil_append, bind_assoc] using h

theorem follows_exprs (known : settings.env.KnownFlags) (f : Frame) (fs : List Frame)
    (n : Nat) : ∀ es : List Expr,
    Follows settings ⟨f :: fs, n⟩ (exprs settings es) (Expr.findingsAll (f :: fs) es)
      ⟨f :: fs, n⟩
  | [] => by
    rw [exprs, Expr.findingsAll]
    exact .done
  | e :: es => by
    rw [exprs, Expr.findingsAll]
    exact (follows_expr known f fs n e).bind (follows_exprs known f fs n es)

theorem follows_optional (known : settings.env.KnownFlags) (f : Frame) (fs : List Frame)
    (n : Nat) : ∀ e : Option Expr,
    Follows settings ⟨f :: fs, n⟩ (optional settings e) (Expr.findingsOpt (f :: fs) e)
      ⟨f :: fs, n⟩
  | none => by
    rw [optional, Expr.findingsOpt]
    exact .done
  | some e => by
    rw [optional, Expr.findingsOpt]
    exact follows_expr known f fs n e

theorem follows_entry (known : settings.env.KnownFlags) (f : Frame) (fs : List Frame)
    (n : Nat) : ∀ d : Entry,
    Follows settings ⟨f :: fs, n⟩ (entry settings d) (d.findings (f :: fs)) ⟨f :: fs, n⟩
  | .mk k v _ => by
    rw [entry, Entry.findings]
    exact (follows_expr known f fs n k).bind (follows_expr known f fs n v)

theorem follows_entries (known : settings.env.KnownFlags) (f : Frame) (fs : List Frame)
    (n : Nat) : ∀ ds : List Entry,
    Follows settings ⟨f :: fs, n⟩ (entries settings ds) (Entry.findingsAll (f :: fs) ds)
      ⟨f :: fs, n⟩
  | [] => by
    rw [entries, Entry.findingsAll]
    exact .done
  | d :: ds => by
    rw [entries, Entry.findingsAll]
    exact (follows_entry known f fs n d).bind (follows_entries known f fs n ds)

theorem follows_argument (known : settings.env.KnownFlags) (f : Frame) (fs : List Frame)
    (n : Nat) : ∀ a : Argument,
    Follows settings ⟨f :: fs, n⟩ (argument settings a) (a.findings (f :: fs)) ⟨f :: fs, n⟩
  | .mk _ v _ _ => by
    rw [argument, Argument.findings]
    exact follows_expr known f fs n v

theorem follows_arguments (known : settings.env.KnownFlags) (f : Frame) (fs : List Frame)
    (n : Nat) : ∀ as : List Argument,
    Follows settings ⟨f :: fs, n⟩ (arguments settings as) (Argument.findingsAll (f :: fs) as)
      ⟨f :: fs, n⟩
  | [] => by
    rw [arguments, Argument.findingsAll]
    exact .done
  | a :: as => by
    rw [arguments, Argument.findingsAll]
    exact (follows_argument known f fs n a).bind (follows_arguments known f fs n as)

theorem follows_clause (known : settings.env.KnownFlags) (f : Frame) (fs : List Frame)
    (n : Nat) : ∀ c : Clause,
    (∀ x ∈ Clause.bindings [c], x.name ∈ f.names) →
    Follows settings ⟨f :: fs, n⟩ (clause settings c) (c.findings (f :: fs)) ⟨f :: fs, n⟩
  | .each vars iterable _, hc => by
    rw [clause, Clause.findings]
    have hv : ∀ x ∈ vars.boundIdentifiers, x.name ∈ f.names := by
      simpa only [Clause.bindings, List.append_nil] using hc
    exact (follows_expr known f fs n iterable).bind (follows_assign known f fs n vars hv)
  | .guard c _, _ => by
    rw [clause, Clause.findings]
    exact follows_expr known f fs n c

theorem follows_clauses (known : settings.env.KnownFlags) (f : Frame) (fs : List Frame)
    (n : Nat) : ∀ cs : List Clause,
    (∀ x ∈ Clause.bindings cs, x.name ∈ f.names) →
    Follows settings ⟨f :: fs, n⟩ (clauses settings cs) (Clause.findingsAll (f :: fs) cs)
      ⟨f :: fs, n⟩
  | [], _ => by
    rw [clauses, Clause.findingsAll]
    exact .done
  | c :: cs, hcs => by
    rw [clauses, Clause.findingsAll]
    rw [Clause.bindings_cons] at hcs
    exact (follows_clause known f fs n c fun x hx => hcs x (List.mem_append_left _ hx)).bind
      (follows_clauses known f fs n cs fun x hx => hcs x (List.mem_append_right _ hx))

theorem follows_body (known : settings.env.KnownFlags) (f : Frame) (fs : List Frame)
    (n : Nat) : ∀ b : Body,
    Follows settings ⟨f :: fs, n⟩ (body settings b) (b.findings (f :: fs)) ⟨f :: fs, n⟩
  | .item e => by
    rw [body, Body.findings]
    exact follows_expr known f fs n e
  | .entry d => by
    rw [body, Body.findings]
    exact follows_entry known f fs n d

theorem follows_assign (known : settings.env.KnownFlags) (f : Frame) (fs : List Frame)
    (n : Nat) : ∀ e : Expr,
    (∀ x ∈ e.boundIdentifiers, x.name ∈ f.names) →
    Follows settings ⟨f :: fs, n⟩ (assign settings e) (e.targetFindings (f :: fs)) ⟨f :: fs, n⟩
  | .ident x, he => by
    rw [Expr.targetFindings]
    exact .assign_ident (he x (by simp [Expr.boundIdentifiers]))
  | .index o k _, _ => by
    rw [assign, Expr.targetFindings]
    exact (follows_expr known f fs n o).bind (follows_expr known f fs n k)
  | .list es _ _, he => by
    rw [assign, Expr.targetFindings]
    exact follows_assignAll known f fs n es (by simpa only [Expr.boundIdentifiers] using he)
  | .int _ _, _ => .refusal _
  | .str _, _ => .refusal _
  | .dict _ _, _ => .refusal _
  | .binary _ _ _ _, _ => .refusal _
  | .unary _ _ _, _ => .refusal _
  | .conditional _ _ _ _, _ => .refusal _
  | .dot _ _ _, _ => .refusal _
  | .slice _ _ _ _ _, _ => .refusal _
  | .call _ _ _, _ => .refusal _
  | .comprehension _ _ _ _, _ => .refusal _

theorem follows_assignAll (known : settings.env.KnownFlags) (f : Frame) (fs : List Frame)
    (n : Nat) : ∀ es : List Expr,
    (∀ x ∈ Expr.boundIdentifiersAll es, x.name ∈ f.names) →
    Follows settings ⟨f :: fs, n⟩ (assignAll settings es) (Expr.targetFindingsAll (f :: fs) es)
      ⟨f :: fs, n⟩
  | [], _ => by
    rw [assignAll, Expr.targetFindingsAll]
    exact .done
  | e :: es, hes => by
    rw [assignAll, Expr.targetFindingsAll]
    rw [Expr.boundIdentifiersAll] at hes
    exact (follows_assign known f fs n e fun x hx => hes x (List.mem_append_left _ hx)).bind
      (follows_assignAll known f fs n es fun x hx => hes x (List.mem_append_right _ hx))

end

theorem follows_defaults (known : settings.env.KnownFlags) (f : Frame) (fs : List Frame)
    (n : Nat) (ps : List Parameter) :
    Follows settings ⟨f :: fs, n⟩ (defaults settings ps)
      (Parameter.defaultFindings (f :: fs) ps) ⟨f :: fs, n⟩ := by
  induction ps with
  | nil => exact .done
  | cons p ps ih =>
    rw [defaults, Parameter.defaultFindings]
    split
    · exact (follows_optional known f fs n p.default).bind ih
    · exact ih

/-- What the parameters of a function declare, each at the place of its parameter. -/
def declaredParameters (ps : List Parameter) : List Declared :=
  ps.filterMap fun p => p.identifier.map fun x => .bound { x with loc := p.loc }

theorem declareParameters_eq (d : Declarations) (ps : List Parameter) :
    declareParameters d ps = (declaredParameters ps).foldl Declarations.take d := by
  rw [declareParameters]
  induction ps generalizing d with
  | nil => rfl
  | cons p ps ih =>
    rw [List.foldl_cons, ih]
    cases hp : p.identifier with
    | none => simp [declaredParameters, hp]
    | some x => simp [declaredParameters, hp, Declarations.take]

theorem declaredParameters_names (ps : List Parameter) :
    ((declaredParameters ps).filterMap Declared.identifier?).map (·.name) =
      (Parameter.bindings ps).map (·.name) := by
  induction ps with
  | nil => rfl
  | cons p ps ih =>
    cases hp : p.identifier with
    | none => simpa [declaredParameters, Parameter.bindings, hp] using ih
    | some x => simpa [declaredParameters, Parameter.bindings, hp, Declared.identifier?] using ih

theorem declaredParameters_note (ps : List Parameter) :
    (declaredParameters ps).filterMap Declared.note? = [] := by
  induction ps with
  | nil => rfl
  | cons p ps ih =>
    cases hp : p.identifier with
    | none => simpa [declaredParameters, hp] using ih
    | some x => simpa [declaredParameters, hp, Declared.note?] using ih

mutual

/-- A statement follows its findings wherever its block binds what it declares. -/
theorem follows_stmt (known : settings.env.KnownFlags) (f : Frame) (fs : List Frame) (n : Nat) :
    ∀ s : Stmt, f.Holds s.declared →
    Follows settings ⟨f :: fs, n⟩ (stmt settings s) (s.findings (f :: fs) n) ⟨f :: fs, n⟩
  | .expr e _, _ => by
    rw [stmt, Stmt.findings]
    exact follows_expr known f fs n e
  | .assign lhs rhs _, hs => by
    rw [stmt, Stmt.findings]
    rw [Stmt.declared, Frame.holds_bound] at hs
    exact (follows_expr known f fs n rhs).bind (follows_assign known f fs n lhs hs)
  | .augmentedAssign _ lhs rhs loc, hs => by
    unfold stmt Stmt.findings
    rw [List.append_assoc]
    rw [Stmt.declared, Frame.holds_bound] at hs
    exact .check ((follows_expr known f fs n rhs).bind (follows_assign known f fs n lhs hs))
  | .ifElse c a b loc, hs => by
    rw [stmt, Stmt.findings, List.append_assoc, List.append_assoc]
    rw [Stmt.declared, Frame.holds_append] at hs
    exact .inFunction (.check ((follows_expr known f fs n c).bind
      ((follows_block known f fs n a hs.1).bind (follows_block known f fs n b hs.2))))
  | .forLoop lhs collection b loc, hs => by
    rw [stmt, Stmt.findings, List.append_assoc, List.append_assoc]
    rw [Stmt.declared, Frame.holds_append, Frame.holds_bound] at hs
    have hloop := Follows.enterLoop.bind ((follows_expr known f fs (n + 1) collection).bind
      ((follows_assign known f fs (n + 1) lhs hs.1).bind
        ((follows_block known f fs (n + 1) b hs.2).bind Follows.leaveLoop)))
    rw [List.nil_append, List.append_nil] at hloop
    exact .inFunction (.check hloop)
  | .define _ ps b loc, _ => by
    rw [stmt, Stmt.findings, List.append_assoc, List.append_assoc]
    have hb : (Stmt.functionFrame ps b).Holds (Stmt.declaredAll b) := by
      refine Frame.holds_of_bindings fun x hx => ?_
      exact List.mem_map_of_mem (List.mem_append_right _ hx)
    have hF : ∀ d, (declareParameters d ps).collectAll b =
        (declaredParameters ps ++ Stmt.declaredAll b).foldl Declarations.take d := by
      intro d
      rw [List.foldl_append, ← declareParameters_eq, Declarations.collectAll_eq]
    have hnames : ∀ x, x ∈ (Stmt.functionFrame ps b).names ↔
        x ∈ ((declaredParameters ps ++ Stmt.declaredAll b).filterMap
          Declared.identifier?).map (·.name) := by
      intro x
      rw [List.filterMap_append, List.map_append, declaredParameters_names, Stmt.functionFrame,
        List.map_append]
      rfl
    have hinner := follows_inner hF rfl hnames
      (follows_block known (Stmt.functionFrame ps b) (f :: fs) n b hb)
    rw [List.filterMap_append, declaredParameters_note, List.nil_append] at hinner
    exact .inFunction (.check ((follows_defaults known f fs n ps).bind hinner))
  | .returns result loc, _ => by
    rw [stmt, Stmt.findings]
    exact .inFunction (.check (follows_optional known f fs n result))
  | .flow kind loc, _ => by
    rw [stmt, Stmt.findings]
    refine Follows.openLoops (k := fun m => if kind ≠ .pass ∧ m = 0 then _ else _) ?_
    unfold misplacedIf
    split
    · exact .misplaced _ loc
    · exact .done
  | .load _ bs loc, _ => by
    rw [stmt, Stmt.findings]
    have h := @Follows.references settings (f :: fs) n known (bs.map (·.localName))
    rw [List.map_map] at h
    exact .inFunction (.check h)

theorem follows_block (known : settings.env.KnownFlags) (f : Frame) (fs : List Frame)
    (n : Nat) : ∀ ss : List Stmt, f.Holds (Stmt.declaredAll ss) →
    Follows settings ⟨f :: fs, n⟩ (block settings ss) (Stmt.findingsAll (f :: fs) n ss)
      ⟨f :: fs, n⟩
  | [], _ => by
    rw [block, Stmt.findingsAll]
    exact .done
  | s :: ss, hss => by
    rw [block, Stmt.findingsAll]
    rw [Stmt.declaredAll, Frame.holds_append] at hss
    exact (follows_stmt known f fs n s hss.1).bind (follows_block known f fs n ss hss.2)

end

end Resolve
end Starlark
