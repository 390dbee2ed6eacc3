import Starlark.Proofs.Grammar.Filled
import Starlark.Proofs.Grammar.Leaves
import Starlark.Proofs.Grammar.Tops
import Starlark.Proofs.Literal.Unsigned
import Starlark.Proofs.Parser.InOrder
import Starlark.Proofs.Syntax.Blocks

/-! # The nodes of a parsed file

Every node begins with a token of the source, no later than the nodes below it; the leaves are
tokens themselves; and what the grammar says of blocks, arguments, parameters and comprehensions
holds of the nodes.
-/
namespace Starlark

/-- Does a node begin no later than another one? -/
def Node.NotAfter (n m : Node) : Prop :=
  ∃ l l', n.loc = some l ∧ m.loc = some l' ∧ l.start.NotAfter l'.start

/-- What holds of a node by the form of the rules: no block is empty, a name belongs to a keyword
argument, only a star stands for a parameter without an identifier, a default belongs to an optional
parameter, a comprehension begins with a loop and has an entry in a dict only, and no integer is
negative. -/
def Node.Shaped : Node → Prop
  | .stmt (.ifElse _ a _ _) => a ≠ []
  | .stmt (.forLoop _ _ b _) => b ≠ []
  | .stmt (.define _ _ b _) => b ≠ []
  | .argument (.mk kind _ x _) => x ≠ none ↔ kind = .keyword
  | .parameter p =>
    (p.identifier = none → p.kind = .star) ∧ (p.default ≠ none ↔ p.kind = .optional)
  | .expr (.comprehension b cs isDict _) =>
    cs.head?.any Clause.isEach = true ∧ (b.isEntry = true ↔ isDict = true)
  | .expr (.int value _) => 0 ≤ value
  | _ => True

/-- The token that a leaf was read from: an identifier has its text for a name, and the values of
numbers, strings and loaded names are decoded from it. -/
def Node.Written (file : String) (ts : List Token) : Node → Prop
  | .expr (.ident x) | .name x => x.name = errorName ∨
    ∃ t ∈ ts, t.kind = .name ∧ x.loc = some (t.span.inFile file) ∧ x.name = t.string
  | .loaded x =>
    ∃ t ∈ ts, t.IsString ∧ x.loc = some (t.span.inFile file) ∧
      x.name = String.ofList (t.decoded file).value
  | .expr (.int value loc) =>
    ∃ t ∈ ts, t.kind ∈ numerals ∧ loc = some (t.span.inFile file) ∧
      decodeInteger t.text = .ok value
  | .expr (.str s) | .string s =>
    ∃ t ∈ ts, t.IsString ∧ s.loc = some (t.span.inFile file) ∧
      s.value = String.ofList (t.decoded file).value
  | _ => True

/-- Does a location begin with one of some tokens? -/
def BeginsIn (file : String) (ts : List Token) (loc : Option Location) : Prop :=
  ∃ t ∈ ts, ∃ stop, loc = some (Span.inFile ⟨t.span.start, stop⟩ file)

structure Node.Good (file : String) (ts : List Token) (n : Node) : Prop where
  begins : BeginsIn file ts n.loc
  shaped : n.Shaped
  ordered : ∀ m ∈ n.children, n.NotAfter m
  written : n.Written file ts

/-- Tokens in the order of the text, with numerals that are not negative. -/
structure Orderly (ts : List Token) : Prop where
  ordered : ts.Pairwise Token.Precedes
  unsigned : ∀ t ∈ ts, t.kind ∈ numerals → ∀ value, decodeInteger t.text = .ok value → 0 ≤ value

theorem Orderly.suffix {ts us : List Token} (h : Orderly us) (hts : ts <:+ us) : Orderly ts :=
  ⟨h.ordered.sublist hts.sublist, fun t ht => h.unsigned t (hts.subset ht)⟩

theorem Orderly.left {ts us : List Token} (h : Orderly (ts ++ us)) : Orderly ts :=
  ⟨(List.pairwise_append.mp h.ordered).1, fun t ht => h.unsigned t (List.mem_append_left _ ht)⟩

theorem Orderly.right {ts us : List Token} (h : Orderly (ts ++ us)) : Orderly us :=
  h.suffix (List.suffix_append ts us)

/-- A string begins after the token that the others follow. -/
theorem Orderly.before_string {t u : Token} {ts : List Token} (h : Orderly (t :: ts)) (hu : u ∈ ts)
    (hstring : u.IsString) : t.span.start.Before u.span.start := by
  have hplace : u.kind ∉ Parser.placeless := by
    rcases hstring with hkind | hkind
    · rw [hkind]
      decide
    · rw [hkind]
      decide
  exact ((List.pairwise_cons.mp h.ordered).1 u hu).2 hplace

/-! ## Nodes -/

variable {file : String} {ts us : List Token}

theorem BeginsIn.mono (h : ts ⊆ us) {loc : Option Location} (hloc : BeginsIn file ts loc) :
    BeginsIn file us loc := by
  obtain ⟨t, ht, hstop⟩ := hloc
  exact ⟨t, h ht, hstop⟩

theorem BeginsAt.beginsIn {loc : Option Location} (h : BeginsAt file ts loc) :
    BeginsIn file ts loc := by
  obtain ⟨t, stop, ht, hloc⟩ := h
  exact ⟨t, List.mem_of_head? ht, stop, hloc⟩

theorem Node.Written.mono (h : ts ⊆ us) {n : Node} (hn : n.Written file ts) :
    n.Written file us := by
  have hexists : ∀ {P : Token → Prop}, (∃ t ∈ ts, P t) → ∃ t ∈ us, P t :=
    fun ⟨t, ht, hP⟩ => ⟨t, h ht, hP⟩
  unfold Written at *
  split at hn
  · exact hn.imp_right hexists
  · exact hn.imp_right hexists
  · exact hexists hn
  · exact hexists hn
  · exact hexists hn
  · exact hexists hn
  · trivial

theorem Node.Good.mono (h : ts ⊆ us) {n : Node} (hn : n.Good file ts) : n.Good file us :=
  ⟨hn.begins.mono h, hn.shaped, hn.ordered, hn.written.mono h⟩

/-- Where one location begins with a token before the other one does. -/
theorem Node.NotAfter.of_begins {n m : Node} {t u : Token} {stop stop' : Point}
    (hn : n.loc = some (Span.inFile ⟨t.span.start, stop⟩ file))
    (hm : m.loc = some (Span.inFile ⟨u.span.start, stop'⟩ file))
    (h : t.span.start.NotAfter u.span.start) : n.NotAfter m := ⟨_, _, hn, hm, h⟩

theorem Node.NotAfter.of_eq {n m : Node} (h : n.loc = m.loc) (hm : BeginsIn file ts m.loc) :
    n.NotAfter m := by
  obtain ⟨t, -, stop, hm⟩ := hm
  exact .of_begins (h.trans hm) hm (.refl _)

/-- The first of some tokens is not after any of them. -/
theorem BeginsAt.notAfter {n m : Node} (hn : BeginsAt file ts n.loc) (hm : BeginsIn file ts m.loc)
    (h : Orderly ts) : n.NotAfter m := by
  obtain ⟨t, stop, ht, hn⟩ := hn
  obtain ⟨u, hu, stop', hm⟩ := hm
  refine .of_begins hn hm ?_
  cases ts with
  | nil => cases ht
  | cons t' ts =>
    cases ht
    rcases List.mem_cons.mp hu with rfl | hu
    · exact .refl _
    · exact ((List.pairwise_cons.mp h.ordered).1 u hu).1

namespace Node

theorem All.leaf {n : Node} (h : n.Good file ts) (hleaf : n.children = []) :
    n.All (Good file ts) := by
  rw [all_iff, hleaf]
  exact ⟨h, List.forall_mem_nil _⟩

/-- A node that begins with the first token is good if the nodes below it are. -/
theorem All.node {n : Node} (hbegins : BeginsAt file ts n.loc) (horder : Orderly ts)
    (hshaped : n.Shaped) (hwritten : n.Written file ts)
    (hchildren : ∀ m ∈ n.children, m.All (Good file ts)) : n.All (Good file ts) :=
  all_iff.mpr ⟨⟨hbegins.beginsIn, hshaped, fun m hm =>
    hbegins.notAfter (hchildren m hm).self.begins horder, hwritten⟩, hchildren⟩

theorem All.widen {n : Node} (h : ts ⊆ us) (hn : n.All (Good file ts)) : n.All (Good file us) :=
  hn.mono fun _ hm => hm.mono h

/-- An identifier in the place of a name token. -/
theorem All.ofName {x : Identifier} {t : Token} (ht : t ∈ ts) (hkind : t.kind = .name)
    (hx : x.name = t.string ∧ x.loc = some (t.span.inFile file)) :
    (Node.name x).All (Good file ts) ∧ (Node.expr (.ident x)).All (Good file ts) :=
  ⟨.leaf ⟨⟨t, ht, _, hx.2⟩, trivial, List.forall_mem_nil _, .inr ⟨t, ht, hkind, hx.2, hx.1⟩⟩ rfl,
    .leaf ⟨⟨t, ht, _, hx.2⟩, trivial, List.forall_mem_nil _, .inr ⟨t, ht, hkind, hx.2, hx.1⟩⟩ rfl⟩

end Node

/-- What a chain is made of is good, so all its nodes are. -/
theorem all_foldChain {loc : Option Location} (hbegins : BeginsAt file ts loc)
    (horder : Orderly ts) {x : Expr} {links : List (BinaryOp × Expr)}
    (hx : (Node.expr x).All (Node.Good file ts))
    (hlinks : ∀ link ∈ links, (Node.expr link.2).All (Node.Good file ts)) :
    (Node.expr (foldChain loc x links)).All (Node.Good file ts) := by
  induction links generalizing x with
  | nil => exact hx
  | cons link links ih =>
    rw [List.forall_mem_cons] at hlinks
    refine ih (.node hbegins horder trivial trivial ?_) hlinks.2
    simpa using ⟨hx, hlinks.1⟩

theorem all_parenthesised {loc : Option Location} (hbegins : BeginsAt file ts loc)
    (horder : Orderly ts) {e : Expr} (he : (Node.expr e).All (Node.Good file ts)) :
    (Node.expr (Build.parenthesised loc e)).All (Node.Good file ts) := by
  unfold Build.parenthesised
  split
  · exact .node hbegins horder trivial trivial (Node.all_iff.mp he).2
  · exact he

theorem all_subscript {loc : Option Location} (hbegins : BeginsAt file ts loc)
    (horder : Orderly ts) {e : Expr} {k : Subscript} (he : (Node.expr e).All (Node.Good file ts))
    (hk : ∀ n ∈ k.tops, n.All (Node.Good file ts)) :
    (Node.expr (Build.subscript loc e k)).All (Node.Good file ts) := by
  cases k with
  | key k => exact .node hbegins horder trivial trivial (List.forall_mem_cons.mpr ⟨he, hk⟩)
  | range a b c => exact .node hbegins horder trivial trivial (List.forall_mem_cons.mpr ⟨he, hk⟩)

/-! ## Meanings -/

/-- Are the nodes of a meaning good? A chain of `elif` clauses is made of nodes that are good as soon
as what follows is. -/
def Nonterminal.Placed (file : String) (ts : List Token) : (x : Nonterminal) → x.Meaning → Prop
  | .stringToken => fun t => ts = [t]
  | .elifs => fun cs => (∀ c ∈ cs, c.node.All (Node.Good file ts)) ∧
      ∀ us b, Orderly (ts ++ us) → (∀ s ∈ b, (Node.stmt s).All (Node.Good file us)) →
        ∀ s ∈ elifChain cs b, (Node.stmt s).All (Node.Good file (ts ++ us))
  | x => fun v => ∀ n ∈ x.tops v, n.All (Node.Good file ts)

def Symbol.Placed (file : String) (ts : List Token) : (s : Symbol) → s.Meaning → Prop
  | .t _ => fun t => ts = [t]
  | .n x => x.Placed file ts

/-- Each tree of a forest has good nodes. -/
def Forest.Placed (file : String) : {ss : List Symbol} → Forest ss → Meanings ss → Prop
  | _, .nil, _ => True
  | s :: _, .cons x xs, vs => s.Placed file x.tokens vs.1 ∧ xs.Placed file vs.2

theorem Symbol.Placed.tops {s : Symbol} {v : s.Meaning} (h : s.Placed file ts v) :
    ∀ n ∈ s.tops v, n.All (Node.Good file ts) := by
  cases s with
  | t a => exact List.forall_mem_nil _
  | n x =>
    cases x
    case stringToken => exact List.forall_mem_nil _
    case elifs => exact List.forall_mem_map.mpr h.1
    all_goals exact h

theorem Forest.Placed.tops {ss : List Symbol} {xs : Forest ss} {vs : Meanings ss}
    (h : xs.Placed file vs) : ∀ n ∈ Meanings.tops ss vs, n.All (Node.Good file xs.tokens) := by
  induction ss with
  | nil => exact List.forall_mem_nil _
  | cons s ss ih =>
    cases xs with
    | cons x xs =>
      refine List.forall_mem_append.mpr ⟨fun n hn => ?_, fun n hn => ?_⟩
      · exact (h.1.tops n hn).widen (List.subset_append_left _ _)
      · exact (ih h.2 n hn).widen (List.subset_append_right _ _)

namespace Build

theorem Returns.and {α : Type} {m : Build α} {P Q : α → Prop} (hP : Returns m P)
    (hQ : Returns m Q) : Returns m fun a => P a ∧ Q a :=
  fun n a n' h => ⟨hP n a n' h, hQ n a n' h⟩

theorem newIdentifier_returns (name : String) (loc : Option Location) :
    Returns (newIdentifier name loc) fun x => x.name = name ∧ x.loc = loc := by
  rintro n _ _ ⟨⟩
  exact ⟨rfl, rfl⟩

/-- An identifier in the place of a name token. -/
theorem identifier_all {t : Token} (ht : t ∈ ts) (hkind : t.kind = .name) :
    Returns (identifier file t) fun x => (Node.name x).All (Node.Good file ts) ∧
      (Node.expr (.ident x)).All (Node.Good file ts) :=
  (newIdentifier_returns _ _).mono fun _ hx => Node.All.ofName ht hkind hx

theorem string_returns (file : String) (t : Token) : Returns (string file t) fun s =>
    s.loc = some (t.span.inFile file) ∧ s.value = String.ofList (t.decoded file).value := by
  rintro n _ _ ⟨⟩
  exact ⟨rfl, rfl⟩

theorem integer_returns (file : String) (t : Token) : Returns (integer file t) fun e =>
    ∃ value, decodeInteger t.text = .ok value ∧ e = .int value (some (t.span.inFile file)) := by
  intro n e n' h
  unfold integer at h
  obtain ⟨value, n₁, hvalue, h⟩ := of_run_bind h
  cases h
  cases hd : decodeInteger t.text with
  | error fault =>
    rw [hd] at hvalue
    cases hvalue
  | ok value' =>
    rw [hd] at hvalue
    cases hvalue
    exact ⟨value, rfl, rfl⟩

/-- A string literal in the place of a string token. -/
theorem string_all {t : Token} (ht : t ∈ ts) (hstring : t.IsString) :
    Returns (string file t) fun s => (Node.string s).All (Node.Good file ts) ∧
      (Node.expr (.str s)).All (Node.Good file ts) := by
  intro n s n' h
  obtain ⟨hloc, hvalue⟩ := string_returns file t n s n' h
  exact ⟨.leaf ⟨⟨t, ht, _, hloc⟩, trivial, List.forall_mem_nil _, t, ht, hstring, hloc, hvalue⟩ rfl,
    .leaf ⟨⟨t, ht, _, hloc⟩, trivial, List.forall_mem_nil _, t, ht, hstring, hloc, hvalue⟩ rfl⟩

theorem integer_all {t : Token} (ht : t ∈ ts) (hkind : t.kind ∈ numerals) (horder : Orderly ts) :
    Returns (integer file t) fun e => (Node.expr e).All (Node.Good file ts) := by
  intro n e n' h
  obtain ⟨value, hvalue, rfl⟩ := integer_returns file t n e n' h
  exact .leaf ⟨⟨t, ht, _, rfl⟩, horder.unsigned t ht hkind value hvalue, List.forall_mem_nil _,
    t, ht, hkind, rfl, hvalue⟩ rfl

section Actions

variable {loc : Option Location} (hbegins : BeginsAt file ts loc) (horder : Orderly ts)
include hbegins horder

theorem call_all (f : Expr) (as : List Argument)
    (h : ∀ n ∈ Node.expr f :: as.map .argument, n.All (Node.Good file ts)) :
    Returns (call loc f as) fun e => (Node.expr e).All (Node.Good file ts) := by
  have hnode : (Node.expr (.call f as loc)).All (Node.Good file ts) :=
    .node hbegins horder trivial trivial h
  unfold call
  split
  · exact .bind (.trivial _) fun _ _ => .pure hnode
  · exact .pure hnode

theorem keywordArgument_all {name value : Expr}
    (hname : (Node.expr name).All (Node.Good file ts))
    (hvalue : (Node.expr value).All (Node.Good file ts)) :
    Returns (keywordArgument loc name value) fun a =>
      (Node.argument a).All (Node.Good file ts) := by
  have hnode : ∀ x : Identifier, (Node.name x).All (Node.Good file ts) →
      (Node.argument (.mk .keyword value (some x) loc)).All (Node.Good file ts) := by
    intro x hx
    refine .node hbegins horder ⟨fun _ => rfl, fun _ => Option.some_ne_none x⟩ trivial ?_
    simpa using ⟨hvalue, hx⟩
  unfold keywordArgument
  split
  · next x =>
    obtain ⟨hloc, -, -, hwritten⟩ := hname.self
    exact .pure (hnode x (.leaf ⟨hloc, trivial, List.forall_mem_nil _, hwritten⟩ rfl))
  · refine .bind (.trivial _) fun _ _ => .bind (.trivial _) fun _ _ =>
      .bind (newIdentifier_returns _ _) fun x hx => .pure ?_
    have hloc : BeginsIn file ts x.loc := by
      rw [hx.2]
      exact hname.self.begins
    exact hnode x (.leaf ⟨hloc, trivial, List.forall_mem_nil _, .inl hx.1⟩ rfl)

theorem load_all {source : Token} (hsource : source ∈ ts) (hstring : source.IsString)
    (bs : List LoadBinding) (h : ∀ b ∈ bs, (Node.binding b).All (Node.Good file ts)) :
    Returns (load file loc source bs) fun s => (Node.stmt s).All (Node.Good file ts) := by
  have hnode : ∀ s, (Node.string s).All (Node.Good file ts) →
      (Node.stmt (.load s bs loc)).All (Node.Good file ts) := fun s hs =>
    .node hbegins horder trivial trivial (List.forall_mem_cons.mpr ⟨hs, List.forall_mem_map.mpr h⟩)
  unfold load
  split
  · exact .bind (.trivial _) fun _ _ => .bind (string_all hsource hstring) fun s hs =>
      .pure (hnode s hs.1)
  · exact .bind (string_all hsource hstring) fun s hs => .pure (hnode s hs.1)

end Actions

theorem loadBinding_returns (localName : Identifier) (exported : StringLiteral) :
    Returns (loadBinding localName exported) fun b => b.localName = localName ∧
      b.loc = localName.loc ∧ b.exportedName.name = exported.value ∧
      b.exportedName.loc = exported.loc := by
  unfold loadBinding
  split
  · exact .bind (.trivial _) fun _ _ => .bind (newIdentifier_returns _ _) fun x hx =>
      .pure ⟨rfl, rfl, hx⟩
  · exact .bind (newIdentifier_returns _ _) fun x hx => .pure ⟨rfl, rfl, hx⟩

/-- A string alone in a load names what it loads in both ways. -/
theorem loadPlain_all {t : Token} (ht : t ∈ ts) (hstring : t.IsString) :
    Returns (do
      let name ← string file t
      loadBinding (← newIdentifier name.value name.loc) name) fun b =>
      (Node.binding b).All (Node.Good file ts) := by
  refine .bind (string_returns file t) fun s hs => .bind (newIdentifier_returns _ _) fun x hx => ?_
  intro n b n' h
  obtain ⟨hlocal, hloc, hname, hexported⟩ := loadBinding_returns x s n b n' h
  have hleaf : ∀ y : Identifier, y.name = s.value → y.loc = s.loc →
      (Node.loaded y).All (Node.Good file ts) := by
    intro y hname hloc
    refine .leaf ⟨⟨t, ht, _, hloc.trans hs.1⟩, trivial, List.forall_mem_nil _, ?_⟩ rfl
    exact ⟨t, ht, hstring, hloc.trans hs.1, hname.trans hs.2⟩
  have hsame : b.localName.loc = b.exportedName.loc := by rw [hlocal, hx.2, hexported]
  have hchildren : (Node.binding b).children = [.loaded b.localName, .loaded b.exportedName] := by
    rw [Node.children, if_pos hsame]
  have hall : ∀ m ∈ (Node.binding b).children, m.All (Node.Good file ts) := by
    rw [hchildren, List.forall_mem_cons, List.forall_mem_singleton, hlocal]
    exact ⟨hleaf x hx.1 hx.2, hleaf _ hname hexported⟩
  refine Node.all_iff.mpr ⟨⟨?_, trivial, fun m hm => ?_, trivial⟩, hall⟩
  · exact ⟨t, ht, _, (hloc.trans hx.2).trans hs.1⟩
  · refine .of_eq ?_ (hall m hm).self.begins
    rw [hchildren] at hm
    simp only [List.mem_cons, List.not_mem_nil, or_false] at hm
    rcases hm with rfl | rfl
    · exact hloc.trans (hlocal ▸ rfl)
    · exact (hloc.trans hx.2).trans hexported.symm

/-- A new name before the string in a load. -/
theorem loadAlias_all {t u : Token} (ht : t ∈ ts) (hkind : t.kind = .name) (hu : u ∈ ts)
    (hstring : u.IsString) (hbefore : t.span.start.Before u.span.start) :
    Returns (do
      let name ← string file u
      loadBinding (← identifier file t) name) fun b =>
      (Node.binding b).All (Node.Good file ts) := by
  refine .bind (string_returns file u) fun s hs => .bind (newIdentifier_returns _ _) fun x hx => ?_
  intro n b n' h
  obtain ⟨hlocal, hloc, hname, hexported⟩ := loadBinding_returns x s n b n' h
  have hlocalLoc : b.localName.loc = some (t.span.inFile file) := hlocal ▸ hx.2
  have hexportedLoc : b.exportedName.loc = some (u.span.inFile file) := hexported.trans hs.1
  have hbindingLoc : (Node.binding b).loc = some (t.span.inFile file) := hloc.trans hx.2
  have hother : b.localName.loc ≠ b.exportedName.loc := by
    rw [hlocalLoc, hexportedLoc]
    intro heq
    have hstart : t.span.start = u.span.start :=
      congrArg Location.start (Option.some.inj heq)
    exact Point.Before.irrefl _ (hstart ▸ hbefore)
  have hchildren : (Node.binding b).children = [.name b.localName, .loaded b.exportedName] := by
    rw [Node.children, if_neg hother]
  have hloaded : (Node.loaded b.exportedName).Good file ts :=
    ⟨⟨u, hu, _, hexportedLoc⟩, trivial, List.forall_mem_nil _, u, hu, hstring, hexportedLoc,
      hname.trans hs.2⟩
  have hall : ∀ m ∈ (Node.binding b).children, m.All (Node.Good file ts) := by
    rw [hchildren, List.forall_mem_cons, List.forall_mem_singleton, hlocal]
    exact ⟨(Node.All.ofName ht hkind hx).1, .leaf hloaded rfl⟩
  refine Node.all_iff.mpr ⟨⟨⟨t, ht, _, hbindingLoc⟩, trivial, fun m hm => ?_, trivial⟩, hall⟩
  rw [hchildren] at hm
  simp only [List.mem_cons, List.not_mem_nil, or_false] at hm
  rcases hm with rfl | rfl
  · exact .of_begins hbindingLoc hlocalLoc (.refl _)
  · exact .of_begins hbindingLoc hexportedLoc (.inr hbefore)

/-- The node of an `elif` clause with what follows it. -/
theorem elifNode_all {c : ElifClause} (hc : c.node.All (Node.Good file ts))
    (horder : Orderly (ts ++ us)) {b : List Stmt}
    (hb : ∀ s ∈ b, (Node.stmt s).All (Node.Good file us)) :
    (Node.stmt (.ifElse c.condition c.block b c.loc)).All (Node.Good file (ts ++ us)) := by
  obtain ⟨⟨hbegins, hshaped, hordered, -⟩, hbelow⟩ := Node.all_iff.mp hc
  have hchildren : ∀ m ∈ c.node.children, m.All (Node.Good file (ts ++ us)) := fun m hm =>
    (hbelow m hm).widen (List.subset_append_left _ _)
  have hrest : ∀ s ∈ b, (Node.stmt s).All (Node.Good file (ts ++ us)) := fun s hs =>
    (hb s hs).widen (List.subset_append_right _ _)
  have hsplit : ∀ m ∈ (Node.stmt (.ifElse c.condition c.block b c.loc)).children,
      m ∈ c.node.children ∨ ∃ s ∈ b, m = .stmt s := by
    intro m hm
    simp only [ElifClause.node, Node.children, List.map_nil, List.append_nil, List.mem_cons,
      List.mem_append, List.mem_map] at hm ⊢
    rcases hm with hm | hm | ⟨s, hs, rfl⟩
    · exact .inl (.inl hm)
    · exact .inl (.inr hm)
    · exact .inr ⟨s, hs, rfl⟩
  refine Node.all_iff.mpr ⟨⟨hbegins.mono (List.subset_append_left _ _), hshaped, fun m hm => ?_,
    trivial⟩, fun m hm => ?_⟩
  · rcases hsplit m hm with hm | ⟨s, hs, rfl⟩
    · exact hordered m hm
    · -- What follows begins with a later token.
      obtain ⟨t, ht, stop, hloc⟩ := hbegins
      obtain ⟨u, hu, stop', hloc'⟩ := (hb s hs).self.begins
      refine .of_begins hloc hloc' ?_
      exact ((List.pairwise_append.mp horder.ordered).2.2 t ht u hu).1
  · rcases hsplit m hm with hm | ⟨s, hs, rfl⟩
    · exact hchildren m hm
    · exact hrest s hs

theorem elifs_placed_one {c : ElifClause} (hc : c.node.All (Node.Good file ts)) :
    Nonterminal.Placed file ts .elifs [c] :=
  ⟨List.forall_mem_singleton.mpr hc, fun _ _ horder hb =>
    List.forall_mem_singleton.mpr (elifNode_all hc horder hb)⟩

theorem elifs_placed_more {cs : List ElifClause} {c : ElifClause}
    (hcs : Nonterminal.Placed file ts .elifs cs) (hc : c.node.All (Node.Good file us)) :
    Nonterminal.Placed file (ts ++ us) .elifs (cs ++ [c]) := by
  refine ⟨List.forall_mem_append.mpr ⟨fun d hd => ?_, List.forall_mem_singleton.mpr ?_⟩,
    fun ws b horder hb => ?_⟩
  · exact (hcs.1 d hd).widen (List.subset_append_left _ _)
  · exact hc.widen (List.subset_append_right _ _)
  · rw [List.append_assoc] at horder ⊢
    have hchain : elifChain (cs ++ [c]) b =
        elifChain cs [.ifElse c.condition c.block b c.loc] := List.foldr_append
    rw [hchain]
    exact hcs.2 (us ++ ws) _ horder
      (List.forall_mem_singleton.mpr (elifNode_all hc horder.right hb))

/-- A conditional with the chain of its `elif` clauses, which stand at its end. -/
theorem ifElif_all {loc : Option Location} (hbegins : BeginsAt file ts loc) (horder : Orderly ts)
    {c : Expr} {a b : List Stmt} {cs : List ElifClause} (vs : List Token)
    (hc : (Node.expr c).All (Node.Good file ts))
    (ha : ∀ s ∈ a, (Node.stmt s).All (Node.Good file ts)) (hne : a ≠ []) (htail : us ++ vs <:+ ts)
    (hcs : Nonterminal.Placed file us .elifs cs)
    (hb : ∀ s ∈ b, (Node.stmt s).All (Node.Good file vs)) :
    ∀ n ∈ Nonterminal.tops .statement [Stmt.ifElse c a (elifChain cs b) loc],
      n.All (Node.Good file ts) := by
  have hchain : ∀ s ∈ elifChain cs b, (Node.stmt s).All (Node.Good file ts) := fun s hs =>
    (hcs.2 vs b (horder.suffix htail) hb s hs).widen htail.subset
  refine List.forall_mem_singleton.mpr (.node hbegins horder hne trivial ?_)
  exact List.forall_mem_cons.mpr ⟨hc, List.forall_mem_append.mpr
    ⟨List.forall_mem_map.mpr ha, List.forall_mem_map.mpr hchain⟩⟩

/-- The action of a rule makes good nodes of good nodes. -/
theorem action_placed {span : Option Span} (p : Production) (xs : Forest p.rhs)
    (vs : Meanings p.rhs) (h : xs.Placed file vs) (hspan : Span.Begins span xs.tokens)
    (hfilled : Meanings.Filled p.rhs vs) (hleaves : Meanings.Leaves (· ∈ xs.tokens) p.rhs vs)
    (horder : Orderly xs.tokens) :
    Returns (action file span p vs) (p.lhs.Placed file xs.tokens) := by
  by_cases hp : p = .fileEmpty
  · subst hp
    exact .pure (List.forall_mem_nil _)
  have hbegins := hspan.beginsAt (xs.tokens_ne_nil hp) file
  have htops := h.tops
  cases p
  case fileEmpty => exact absurd rfl hp
  case stringShort | stringLong =>
    obtain _ | ⟨x, _ | _⟩ := xs
    refine .pure ?_
    have hx : x.tokens = [vs.1] := h.1
    rw [Nonterminal.Placed, Forest.tokens, hx]
    rfl
  case elifsOne =>
    obtain _ | ⟨x, _ | _⟩ := xs
    refine .pure ?_
    rw [Forest.tokens, Forest.tokens, List.append_nil]
    exact elifs_placed_one (List.forall_mem_singleton.mp h.1)
  case elifsMore =>
    obtain _ | ⟨x, _ | ⟨y, _ | _⟩⟩ := xs
    refine .pure ?_
    rw [Forest.tokens, Forest.tokens, Forest.tokens, List.append_nil]
    exact elifs_placed_more h.1 (List.forall_mem_singleton.mp h.2.1)
  case ifElifElse =>
    obtain _ | ⟨kw, _ | ⟨c, _ | ⟨colon, _ | ⟨suite, _ | ⟨elifs, _ | ⟨els, _ | _⟩⟩⟩⟩⟩⟩ := xs
    obtain ⟨-, -, -, -, helifs, hels, -⟩ := h
    refine .pure (ifElif_all hbegins horder els.tokens (htops _ (by simp))
      (fun s hs => htops _ (by simp [hs])) hfilled.2.2.2.1 ?_ helifs (List.forall_mem_map.mp hels))
    exact ⟨kw.tokens ++ (c.tokens ++ (colon.tokens ++ suite.tokens)), by simp [Forest.tokens]⟩
  case ifElif =>
    obtain _ | ⟨kw, _ | ⟨c, _ | ⟨colon, _ | ⟨suite, _ | ⟨elifs, _ | _⟩⟩⟩⟩⟩ := xs
    obtain ⟨-, -, -, -, helifs, -⟩ := h
    refine .pure (ifElif_all hbegins horder [] (htops _ (by simp))
      (fun s hs => htops _ (by simp [hs])) hfilled.2.2.2.1 ?_ helifs (List.forall_mem_nil _))
    exact ⟨kw.tokens ++ (c.tokens ++ (colon.tokens ++ suite.tokens)), by simp [Forest.tokens]⟩
  case elifClause =>
    refine .pure (List.forall_mem_singleton.mpr
      (.node hbegins horder hfilled.2.2.2.1 trivial ?_))
    simpa [ElifClause.node] using htops
  case ifElse | ifOnly =>
    refine .pure (List.forall_mem_singleton.mpr
      (.node hbegins horder hfilled.2.2.2.1 trivial ?_))
    simpa using htops
  case forLoop =>
    refine .pure (List.forall_mem_singleton.mpr
      (.node hbegins horder hfilled.2.2.2.2.2.1 trivial ?_))
    simpa using htops
  case defNone =>
    refine .bind (identifier_all hleaves.2.1.2 hleaves.2.1.1) fun x hx => .pure
      (List.forall_mem_singleton.mpr (.node hbegins horder hfilled.2.2.2.2.2.1 trivial ?_))
    simpa [hx.1] using htops
  case defSome =>
    refine .bind (identifier_all hleaves.2.1.2 hleaves.2.1.1) fun x hx => .pure
      (List.forall_mem_singleton.mpr (.node hbegins horder hfilled.2.2.2.2.2.2.1 trivial ?_))
    simpa [hx.1] using htops
  case returnNone | passFlow | breakFlow | continueFlow | emptyTuple | listEmpty | dictEmpty =>
    exact .pure (List.forall_mem_singleton.mpr
      (.node hbegins horder trivial trivial (List.forall_mem_nil _)))
  case exprStatement | assign | augmentedAssign | returnValue | exprListManyComma | exprListMany
      | exprListOneComma | targetListManyComma | targetListMany | targetListOneComma | conditional
      | not | unary | listOne | listOneComma | listMany | listManyComma | dictOne | dictOneComma
      | dictMany | dictManyComma | entry | clauseIf | compFor =>
    refine .pure (List.forall_mem_singleton.mpr (.node hbegins horder trivial trivial ?_))
    simpa using htops
  case loadSomeComma | loadSome =>
    refine (load_all hbegins horder hleaves.2.2.1.2 hleaves.2.2.1.1 vs.2.2.2.1 ?_).mono fun s =>
      List.forall_mem_singleton.mpr
    simpa using htops
  case loadNoneComma | loadNone =>
    exact (load_all hbegins horder hleaves.2.2.1.2 hleaves.2.2.1.1 [] (List.forall_mem_nil _)).mono
      fun s => List.forall_mem_singleton.mpr
  case loadPlain =>
    exact (loadPlain_all hleaves.1.2 hleaves.1.1).mono fun b => List.forall_mem_singleton.mpr
  case loadAlias =>
    obtain _ | ⟨x, _ | ⟨equal, _ | ⟨y, _ | _⟩⟩⟩ := xs
    obtain ⟨hx, -, hy, -⟩ := h
    change x.tokens = [vs.1] at hx
    change y.tokens = [vs.2.2.1] at hy
    rw [Forest.tokens, hx] at horder
    have hmem : vs.2.2.1 ∈ (Forest.cons equal (.cons y .nil)).tokens := by
      simp [Forest.tokens, hy]
    have hbefore := horder.before_string hmem hleaves.2.2.1.1
    exact (loadAlias_all hleaves.1.2 hleaves.1.1 hleaves.2.2.1.2 hleaves.2.2.1.1 hbefore).mono
      fun b => List.forall_mem_singleton.mpr
  case parameterMandatory =>
    refine .bind (identifier_all hleaves.1.2 hleaves.1.1) fun x hx => .pure
      (List.forall_mem_singleton.mpr (.node hbegins horder (by simp [Node.Shaped]) trivial ?_))
    simpa using hx.1
  case parameterOptional =>
    refine .bind (identifier_all hleaves.1.2 hleaves.1.1) fun x hx => .pure
      (List.forall_mem_singleton.mpr (.node hbegins horder (by simp [Node.Shaped]) trivial ?_))
    simpa [hx.1] using htops
  case parameterStar | parameterStarStar =>
    refine .bind (identifier_all hleaves.2.1.2 hleaves.2.1.1) fun x hx => .pure
      (List.forall_mem_singleton.mpr (.node hbegins horder (by simp [Node.Shaped]) trivial ?_))
    simpa using hx.1
  case parameterBareStar =>
    exact .pure (List.forall_mem_singleton.mpr
      (.node hbegins horder (by simp [Node.Shaped]) trivial (List.forall_mem_nil _)))
  case callNone =>
    refine (call_all hbegins horder vs.1 [] ?_).mono fun e => List.forall_mem_singleton.mpr
    simpa using htops
  case callSome =>
    refine (call_all hbegins horder vs.1 vs.2.2.1 ?_).mono fun e => List.forall_mem_singleton.mpr
    simpa using htops
  case index =>
    obtain ⟨he, hk⟩ := List.forall_mem_cons.mp htops
    refine .pure (List.forall_mem_singleton.mpr (all_subscript hbegins horder he ?_))
    simpa using hk
  case dot =>
    refine .bind (identifier_all hleaves.2.2.1.2 hleaves.2.2.1.1) fun x hx => .pure
      (List.forall_mem_singleton.mpr (.node hbegins horder trivial trivial ?_))
    simpa [hx.1] using htops
  case argumentPositional | argumentStar | argumentStarStar =>
    refine .pure (List.forall_mem_singleton.mpr
      (.node hbegins horder (by simp [Node.Shaped]) trivial ?_))
    simpa using htops
  case argumentKeyword =>
    obtain ⟨hname, hvalue⟩ := List.forall_mem_cons.mp htops
    exact (keywordArgument_all hbegins horder hname (by simpa using hvalue)).mono fun a =>
      List.forall_mem_singleton.mpr
  case name =>
    exact .bind (identifier_all hleaves.1.2 hleaves.1.1) fun x hx =>
      .pure (List.forall_mem_singleton.mpr hx.2)
  case decimal | hexadecimal | octal =>
    exact (integer_all hleaves.1.2 (by rw [hleaves.1.1]; decide) horder).mono fun e =>
      List.forall_mem_singleton.mpr
  case string =>
    exact .bind (string_all hleaves.1.2 (.inl hleaves.1.1)) fun s hs =>
      .pure (List.forall_mem_singleton.mpr hs.2)
  case longString =>
    exact .bind (string_all hleaves.1.2 (.inr hleaves.1.1)) fun s hs =>
      .pure (List.forall_mem_singleton.mpr hs.2)
  case paren =>
    refine .pure (List.forall_mem_singleton.mpr (all_parenthesised hbegins horder ?_))
    simpa using htops
  case listCompFor | listCompClauses | dictCompFor | dictCompClauses =>
    refine .pure (List.forall_mem_singleton.mpr (.node hbegins horder ?_ trivial ?_))
    · have hfirst : Clause.isEach vs.2.2.1 = true := hfilled.2.2.1
      simpa [Node.Shaped, Body.isEntry] using hfirst
    · simpa using htops
  case chain =>
    obtain ⟨hx, hlinks⟩ := List.forall_mem_cons.mp htops
    refine .pure (List.forall_mem_singleton.mpr (all_foldChain hbegins horder hx fun link hl => ?_))
    exact hlinks _ (by simpa using ⟨link.1, hl⟩)
  case augmentedAdd | augmentedSub | augmentedMul | augmentedDiv | augmentedFloorDiv | augmentedMod
      | augmentedBitAnd | augmentedBitOr | augmentedBitXor | augmentedShiftLeft
      | augmentedShiftRight | unaryPlus | unaryMinus | unaryTilde | operator | itemsBlank
      | sliceColon | slice =>
    exact .pure (List.forall_mem_nil _)
  -- The nodes of the other rules are passed on.
  all_goals
    refine .pure (show ∀ n ∈ Nonterminal.tops _ _, n.All (Node.Good file xs.tokens) from ?_)
    simpa using htops

end Build

mutual

/-- The nodes of a tree are good if its tokens are in the order of the text. -/
theorem Tree.build_placed (file : String) : ∀ {s : Symbol} (tree : Tree s), Orderly tree.tokens →
    Build.Returns (tree.build file) fun v => s.Placed file tree.tokens v.1
  | _, .leaf t, _ => by
    rw [Tree.build]
    exact .pure rfl
  | _, .node p xs, h => by
    rw [Tree.build]
    refine .bind (((Forest.build_placed file xs h).and (Forest.build_show file xs)).and
      ((Forest.build_filled file xs).and (Forest.build_leaves file xs fun t ht => ht))) fun v hv => ?_
    obtain ⟨⟨hplaced, -, hspan⟩, hfilled, hleaves⟩ := hv
    exact .bind (Build.action_placed p xs v.1 hplaced hspan hfilled hleaves h) fun a ha => .pure ha

theorem Forest.build_placed (file : String) : ∀ {ss : List Symbol} (xs : Forest ss),
    Orderly xs.tokens → Build.Returns (xs.build file) fun vs => xs.Placed file vs.1
  | _, .nil, _ => by
    rw [Forest.build]
    exact .pure True.intro
  | _, .cons x xs, h => by
    rw [Forest.tokens] at h
    rw [Forest.build]
    exact .bind (Tree.build_placed file x h.left) fun v hv =>
      .bind (Forest.build_placed file xs h.right) fun vs hvs => .pure ⟨hv, hvs⟩

end

/-- Every node of a parsed file is good, by the tokens handed to the automaton. -/
theorem parseStatements_good {text file : String} {firstId : Nat} {ss : List Stmt}
    {notes : Notes} (h : parseStatements text file firstId = (.ok ss, notes)) :
    ∀ n ∈ Stmt.nodesAll ss, n.Good file (Parser.handedTokens text.toList) := by
  obtain ⟨tree, span, hderive, hbuild⟩ := tree_of_parseStatements h
  obtain ⟨hread, hordered⟩ := Parser.inOrder_of_derive hderive
  have horderly : Orderly tree.tokens := by
    refine ⟨hordered, fun t ht hkind value hvalue => decodeInteger_nonneg ?_ hvalue⟩
    have hplace : ∀ kind ∈ numerals, kind ∉ Parser.placeless := by decide
    obtain ⟨_, _, _, -, -, hmatch⟩ := (hread t ht).2 (hplace _ hkind)
    exact Scan.minus_not_mem_of_match? hmatch hkind
  have hall := tree.build_placed file horderly _ _ _ hbuild
  rw [← Parser.tokens_of_derive hderive]
  intro n hn
  obtain ⟨s, hs, hn⟩ := List.mem_flatMap.mp hn
  exact hall _ (List.mem_map_of_mem hs) n hn

end Starlark
