import LineTint.Parser
import LineTint.Proofs.TightEdit
import Mathlib.Data.List.DropRight
import Mathlib.Data.List.Induction

namespace LineTint.IncrementalParser

open Text

variable {Tree Query : Type}

inductive Call where
  | parse (text : String)
  | clear
deriving DecidableEq

def Call.text? : Call → Option String
  | .parse text => some text
  | .clear => none

def perform (e : Engine Tree Query) (p : IncrementalParser Tree) : Call → IncrementalParser Tree
  | .parse text => p.parse e text
  | .clear => p.clear

def run (e : Engine Tree Query) (g : Grammar) (calls : List Call) : IncrementalParser Tree :=
  calls.foldl (perform e) { grammar := g }

/-- The texts parsed since the last clear, or since the start. -/
def texts (calls : List Call) : List String := (calls.rtakeWhile (· ≠ .clear)).filterMap Call.text?

/-- The tree is one that the engine has made of the text, either anew or from a tree of another text with
the edit between the two. -/
inductive TreeOf (e : Engine Tree Query) (g : Grammar) : String → Tree → Prop
  | whole (text : String) : TreeOf e g text (e.parse g none text)
  | edited {old new : String} {tree : Tree} {edit : Edit} (hold : TreeOf e g old tree)
      (hedit : Edit.between (bytes old) (bytes new) = some edit) :
      TreeOf e g new (e.parse g (some (tree, edit)) new)

structure Keeps (e : Engine Tree Query) (g : Grammar) (ts : List String) (p : IncrementalParser Tree) : Prop where
  grammar : p.grammar = g
  tree : p.tree.isSome ↔ ts ≠ []
  source : p.source = ts.getLast?.getD ""
  treeOf : ∀ tree, p.tree = some tree → TreeOf e g p.source tree
  changes : p.changes = none ↔ ts.length ≤ 1

theorem texts_concat_parse (calls : List Call) (text : String) :
    texts (calls ++ [.parse text]) = texts calls ++ [text] := by
  rw [texts, List.rtakeWhile_concat, if_pos (by simp), List.filterMap_append]
  rfl

theorem texts_concat_clear (calls : List Call) : texts (calls ++ [.clear]) = [] := by
  rw [texts, List.rtakeWhile_concat, if_neg (by simp)]
  rfl

theorem run_concat (e : Engine Tree Query) (g : Grammar) (calls : List Call) (call : Call) :
    run e g (calls ++ [call]) = (run e g calls).perform e call :=
  List.foldl_append

theorem exists_of_texts {calls : List Call} {ts : List String} {text : String}
    (h : texts calls = ts ++ [text]) : ∃ before, calls = before ++ [.parse text] ∧ texts before = ts := by
  induction calls using List.reverseRecOn with
  | nil => exact absurd h.symm (by simp [texts])
  | append_singleton before call =>
      cases call with
      | clear =>
          rw [texts_concat_clear] at h
          exact absurd h.symm (by simp)
      | parse latest =>
          rw [texts_concat_parse] at h
          obtain ⟨rfl, htext⟩ := List.append_inj' h rfl
          obtain rfl := List.singleton_inj.mp htext
          exact ⟨before, rfl, rfl⟩

variable {e : Engine Tree Query} {g : Grammar} {p : IncrementalParser Tree} {ts : List String} {text : String}
  {old : Tree} {edit : Edit}

theorem parse_of_no_tree (h : p.tree = none) (text : String) : p.parse e text =
    { p with tree := some (e.parse p.grammar none text), source := text, changes := none } := by
  rw [parse, h]

theorem parse_of_same (h : p.tree = some old) : p.parse e p.source = { p with changes := some [] } := by
  simp only [parse, h, Edit.between_eq_none_iff.mpr]

theorem parse_of_edit (h : p.tree = some old)
    (hedit : Edit.between (bytes p.source) (bytes text) = some edit) :
    p.parse e text = { p with
      tree := some (e.parse p.grammar (some (old, edit)) text), source := text
      changes := some (edit.span :: e.differences old edit (e.parse p.grammar (some (old, edit)) text)) } := by
  simp only [parse, h, hedit]

theorem Keeps.parse (h : p.Keeps e g ts) (text : String) : (p.parse e text).Keeps e g (ts ++ [text]) := by
  have hts : ts ++ [text] ≠ [] := by simp
  have hlast : (ts ++ [text]).getLast?.getD "" = text := by simp
  cases htree : p.tree with
  | none =>
      have hnil : ts = [] := by
        by_contra hne
        have hsome := h.tree.mpr hne
        rw [htree] at hsome
        cases hsome
      rw [parse_of_no_tree htree]
      refine ⟨h.grammar, iff_of_true rfl hts, hlast.symm, ?_, iff_of_true rfl (by rw [hnil]; rfl)⟩
      rintro _ ⟨⟩
      rw [h.grammar]
      exact .whole text
  | some old =>
      have hlong : ¬ (ts ++ [text]).length ≤ 1 := by
        have hpos := List.length_pos_iff.mpr (h.tree.mp (by rw [htree]; rfl))
        rw [List.length_append, List.length_singleton]
        omega
      by_cases hsame : p.source = text
      · subst hsame
        rw [parse_of_same htree]
        exact ⟨h.grammar, iff_of_true (by rw [htree]; rfl) hts, hlast.symm, h.treeOf, iff_of_false nofun hlong⟩
      · obtain ⟨edit, hedit⟩ := Edit.exists_between fun hbytes => hsame (bytes_injective hbytes)
        rw [parse_of_edit htree hedit]
        refine ⟨h.grammar, iff_of_true rfl hts, hlast.symm, ?_, iff_of_false nofun hlong⟩
        rintro _ ⟨⟩
        rw [h.grammar]
        exact .edited (h.treeOf old htree) hedit

theorem keeps_clear (h : p.grammar = g) : p.clear.Keeps e g [] where
  grammar := h
  tree := by simp [clear]
  source := rfl
  treeOf := nofun
  changes := iff_of_true rfl (Nat.zero_le 1)

theorem keeps_run (e : Engine Tree Query) (g : Grammar) (calls : List Call) :
    (run e g calls).Keeps e g (texts calls) := by
  induction calls using List.reverseRecOn with
  | nil => exact keeps_clear (p := { grammar := g }) rfl
  | append_singleton calls call ih =>
      rw [run_concat]
      cases call with
      | parse text =>
          rw [texts_concat_parse]
          exact ih.parse text
      | clear =>
          rw [texts_concat_clear]
          exact keeps_clear ih.grammar

theorem Keeps.exists_tree {latest : String} (h : p.Keeps e g (ts ++ [latest])) :
    ∃ tree, p.tree = some tree ∧ p.source = latest := by
  obtain ⟨tree, htree⟩ := Option.isSome_iff_exists.mp (h.tree.mpr (by simp))
  refine ⟨tree, htree, ?_⟩
  rw [h.source]
  simp

/-- The parser has been told the edit from one text to the next, and has found out from the trees of the
two what else has changed. -/
structure Reports (e : Engine Tree Query) (before after : IncrementalParser Tree) (old new : String)
    (edit : Edit) : Prop where
  source : before.source = old
  between : Edit.between (bytes old) (bytes new) = some edit
  changes : ∃ tree tree', before.tree = some tree ∧ after.tree = some tree' ∧
    after.changes = some (edit.span :: e.differences tree edit tree')

theorem reports_of_between {old new : String} (h : p.Keeps e g (ts ++ [old]))
    (hedit : Edit.between (bytes old) (bytes new) = some edit) : Reports e p (p.parse e new) old new edit := by
  obtain ⟨tree, htree, rfl⟩ := h.exists_tree
  rw [parse_of_edit htree hedit]
  exact ⟨rfl, hedit, tree, _, htree, rfl, rfl⟩

theorem changes_parse_eq_nil_iff {old new : String} (h : p.Keeps e g (ts ++ [old])) :
    (p.parse e new).changes = some [] ↔ new = old := by
  constructor
  · intro hnil
    by_contra hne
    obtain ⟨edit, hedit⟩ := Edit.exists_between fun hbytes => hne (bytes_injective hbytes).symm
    obtain ⟨-, -, tree, tree', -, -, hchanges⟩ := reports_of_between h hedit
    cases hnil.symm.trans hchanges
  · rintro rfl
    obtain ⟨tree, htree, rfl⟩ := h.exists_tree
    rw [parse_of_same htree]

/-- A parser has a tree exactly if it has parsed a text since it was last cleared, and then its source is the
latest such text, and the tree is of it. It knows of changes from the second text on: there are none if the
text has stayed the same, and otherwise the first is the edit between the last two texts, which lies in the
latter, and the others are those that the engine finds between the trees. -/
theorem run_by_texts (e : Engine Tree Query) (g : Grammar) (calls : List Call) :
    let p := run e g calls
    ((SyntaxParser.tree? p).isSome ↔ texts calls ≠ []) ∧
    p.source = (texts calls).getLast?.getD "" ∧ SyntaxParser.text p = p.source ∧
    (∀ tree, SyntaxParser.tree? p = some tree → TreeOf e g p.source tree) ∧
    (SyntaxParser.changes? p = none ↔ (texts calls).length ≤ 1) ∧
    ∀ ts old new, texts calls = ts ++ [old, new] →
      (SyntaxParser.changes? p = some [] ↔ new = old) ∧
      (new ≠ old → ∃ edit, Reports e (run e g calls.dropLast) p old new edit ∧
        edit.start ≤ edit.newEnd ∧ edit.newEnd ≤ (bytes new).length ∧
        ((bytes new).length ≤ Offset.last.toNat →
          edit.span.start.toNat = edit.start ∧ edit.span.stop.toNat = edit.newEnd)) := by
  intro p
  have hp : p.Keeps e g (texts calls) := keeps_run e g calls
  refine ⟨hp.tree, hp.source, rfl, hp.treeOf, hp.changes, fun ts old new htexts => ?_⟩
  rw [List.append_cons] at htexts
  obtain ⟨before, rfl, hbefore⟩ := exists_of_texts htexts
  have hold : (run e g before).Keeps e g (ts ++ [old]) := hbefore ▸ keeps_run e g before
  have hrun : p = (run e g before).parse e new := run_concat e g before (.parse new)
  rw [hrun, List.dropLast_concat]
  refine ⟨changes_parse_eq_nil_iff hold, fun hne => ?_⟩
  obtain ⟨edit, hedit⟩ := Edit.exists_between fun hbytes => hne (bytes_injective hbytes).symm
  have htight := Edit.tight_of_between hedit
  refine ⟨edit, reports_of_between hold hedit, htight.start_le_newEnd, htight.newEnd_le, fun hsize => ?_⟩
  exact Edit.span_bounds htight.start_le_newEnd (Nat.le_trans htight.newEnd_le hsize)

end LineTint.IncrementalParser
