import Coupling.Proofs.Text.Lines
import Coupling.Proofs.Walk.Scopes
import Mathlib.Data.List.DropRight

/-!
# Decorators and what follows them

A decorator is an at sign and an expression, and comments may end its line. What is read of it is
the text after the at sign up to the end of the node, so comments are read along with the
expression. A static method is told by the text `staticmethod`: with a comment after it the function
is taken for a method, and its first parameter for a receiver.
-/

namespace Coupling

namespace Text

/-! ### Slices that follow each other -/

theorem dropBytes?_eq_some {n : Nat} {cs rest : List Char} (h : dropBytes? n cs = some rest) :
    ∃ before, cs = before ++ rest ∧ byteSize before = n := by
  fun_induction dropBytes? n cs with
  | case1 cs => exact ⟨[], by simpa using h, rfl⟩
  | case2 => simp at h
  | case3 n c cs hle ih =>
    obtain ⟨before, rfl, hsize⟩ := ih h
    refine ⟨c :: before, rfl, ?_⟩
    show c.utf8Size + byteSize before = n + 1
    omega
  | case4 => simp at h

theorem takeBytes?_eq_some {n : Nat} {cs first : List Char} (h : takeBytes? n cs = some first) :
    ∃ after, cs = first ++ after ∧ byteSize first = n := by
  fun_induction takeBytes? n cs generalizing first with
  | case1 cs =>
    obtain rfl := Option.some.inj h
    exact ⟨cs, rfl, rfl⟩
  | case2 => simp at h
  | case3 n c cs hle ih =>
    obtain ⟨rest, hrest, rfl⟩ := Option.map_eq_some_iff.mp h
    obtain ⟨after, rfl, hsize⟩ := ih hrest
    refine ⟨after, rfl, ?_⟩
    show c.utf8Size + byteSize rest = n + 1
    omega
  | case4 => simp at h

theorem slice?_eq_some {cs middle : List Char} {start stop : Nat}
    (h : slice? cs start stop = some middle) :
    ∃ before after, cs = before ++ (middle ++ after) ∧ byteSize before = start ∧
      byteSize before + byteSize middle = stop := by
  unfold slice? at h
  split at h
  · rename_i hle
    obtain ⟨rest, hdrop, htake⟩ := Option.bind_eq_some_iff.mp h
    obtain ⟨before, rfl, hbefore⟩ := dropBytes?_eq_some hdrop
    obtain ⟨after, rfl, hmiddle⟩ := takeBytes?_eq_some htake
    exact ⟨before, after, rfl, hbefore, by omega⟩
  · simp at h

theorem slice?_trans {cs first second : List Char} {start middle stop : Nat}
    (hfirst : slice? cs start middle = some first)
    (hsecond : slice? cs middle stop = some second) :
    slice? cs start stop = some (first ++ second) := by
  obtain ⟨before, after, rfl, rfl, rfl⟩ := slice?_eq_some hfirst
  obtain ⟨before', after', hcs, hsize, rfl⟩ := slice?_eq_some hsecond
  -- Only one text is left after a number of bytes.
  have hafter : after = second ++ after' := by
    have hleft := dropBytes?_append (before ++ first) after
    have hright := dropBytes?_append before' (second ++ after')
    rw [← hcs, hsize, ← byteSize_append, ← List.append_assoc, hleft] at hright
    exact Option.some.inj hright
  subst hafter
  have hslice := slice?_append before (first ++ second) after'
  rwa [byteSize_append, ← Nat.add_assoc, List.append_assoc, ← hsize] at hslice

/-! ### Trimmed text -/

/-- The text starts and ends with something that is not blank, and not with an at sign. -/
def isBare (cs : List Char) : Bool :=
  cs.head?.any (fun c => !isBlank c && c != '@') && cs.getLast?.any (!isBlank ·)

theorem dropWhileEnd_append {p : Char → Bool} {first : List Char}
    (hfirst : first.getLast?.any (!p ·) = true) (second : List Char) :
    dropWhileEnd p (first ++ second) = first ++ dropWhileEnd p second := by
  have hstays : first.reverse.dropWhile p = first.reverse := by
    rw [List.dropWhile_eq_self_iff]
    intro hpos
    rw [List.getLast?_eq_head?_reverse, List.head?_eq_getElem?,
      List.getElem?_eq_getElem hpos] at hfirst
    simpa using hfirst
  unfold dropWhileEnd
  rw [List.reverse_append, List.dropWhile_append]
  split
  · rename_i hempty
    rw [List.isEmpty_iff] at hempty
    rw [hstays, hempty, List.reverse_reverse, List.reverse_nil, List.append_nil]
  · rw [List.reverse_append, List.reverse_reverse]

theorem dropWhileEnd_of_all {p : Char → Bool} {cs : List Char} (h : cs.all p = true) :
    dropWhileEnd p cs = [] :=
  List.rdropWhile_eq_nil_iff.mpr (List.all_eq_true.mp h)

theorem dropWhileEnd_append_of_all {p : Char → Bool} (first : List Char) {second : List Char}
    (h : second.all p = true) : dropWhileEnd p (first ++ second) = dropWhileEnd p first := by
  have hnone : second.reverse.dropWhile p = [] := by
    rw [List.dropWhile_eq_nil_iff]
    exact fun c hc => List.all_eq_true.mp h c (List.mem_reverse.mp hc)
  unfold dropWhileEnd
  rw [List.reverse_append, List.dropWhile_append, hnone, List.isEmpty_nil, if_pos rfl]

theorem mem_dropWhileEnd {p : Char → Bool} {c : Char} {cs : List Char} (hc : c ∈ cs)
    (hp : p c = false) : c ∈ dropWhileEnd p cs := by
  obtain ⟨before, after, rfl⟩ := List.append_of_mem hc
  rw [show before ++ c :: after = (before ++ [c]) ++ after by simp,
    dropWhileEnd_append (by simp [hp])]
  simp

/-- Trimming what stands after an at sign gives the text there, with what follows it. -/
theorem trim_dropWhile_sign {gap code : List Char} (hgap : gap.all isBlank = true)
    (hcode : isBare code = true) (rest : List Char) :
    trim (('@' :: (gap ++ (code ++ rest))).dropWhile (· == '@')) =
      code ++ dropWhileEnd isBlank rest := by
  rw [isBare, Bool.and_eq_true] at hcode
  obtain ⟨hhead, hlast⟩ := hcode
  cases code with
  | nil => simp at hhead
  | cons c code =>
    simp only [List.head?_cons, Option.any_some, Bool.and_eq_true, Bool.not_eq_true',
      bne_iff_ne] at hhead
    have hsign : (gap ++ (c :: code ++ rest)).dropWhile (· == '@') =
        gap ++ (c :: code ++ rest) := by
      cases gap with
      | nil => simp [hhead.2]
      | cons b gap =>
        have hb : b ≠ '@' := by
          rintro rfl
          exact absurd (List.all_eq_true.mp hgap '@' List.mem_cons_self) (by decide)
        simp [hb]
    have hfront : trimStart (gap ++ (c :: code ++ rest)) = c :: code ++ rest := by
      rw [trimStart, List.dropWhile_append_of_pos (List.all_eq_true.mp hgap)]
      simp [hhead.1]
    rw [List.dropWhile_cons_of_pos (by decide), hsign, trim, hfront, dropWhileEnd_append hlast]

end Text

/-! ### The parts of a decorator -/

namespace Syntax.SourceText

/-- Nothing but blanks stands between two offsets. -/
def blankBetween (text : SourceText) (start stop : Nat) : Bool :=
  (Text.slice? text.chars start stop).any (·.all Text.isBlank)

/-- Between two offsets stand some nodes, one after the other, and otherwise blanks. -/
def spaced (text : SourceText) (start stop : Nat) : List Tree → Bool
  | [] => text.blankBetween start stop
  | t :: rest =>
    text.blankBetween start t.label.start &&
      (Text.slice? text.chars t.label.start t.label.stop).isSome &&
      text.spaced t.label.stop stop rest

theorem blankBetween_eq_true {text : SourceText} {start stop : Nat}
    (h : text.blankBetween start stop = true) :
    ∃ gap, Text.slice? text.chars start stop = some gap ∧ gap.all Text.isBlank = true :=
  (Option.any_eq_true _ _).mp h

theorem toList_text {text : SourceText} {t : Tree} {cs : List Char}
    (h : Text.slice? text.chars t.label.start t.label.stop = some cs) :
    (text.text t).toList = cs := by
  rw [SourceText.text, h, Option.getD_some, String.toList_ofList]

/-- After the last of some nodes stand blanks, and before it the other nodes. -/
theorem exists_slices_of_spaced {text : SourceText} {start stop : Nat} {nodes : List Tree}
    {last : Tree} (h : text.spaced start stop nodes = true) (hlast : nodes.getLast? = some last) :
    ∃ before gap, Text.slice? text.chars start last.label.stop =
        some (before ++ (text.text last).toList) ∧
      Text.slice? text.chars last.label.stop stop = some gap ∧ gap.all Text.isBlank = true := by
  induction nodes generalizing start with
  | nil => simp at hlast
  | cons t rest ih =>
    rw [spaced, Bool.and_eq_true, Bool.and_eq_true] at h
    obtain ⟨⟨hgap, hnode⟩, hrest⟩ := h
    obtain ⟨gap, hgap, _⟩ := blankBetween_eq_true hgap
    obtain ⟨cs, hcs⟩ := Option.isSome_iff_exists.mp hnode
    have hnode := Text.slice?_trans hgap hcs
    cases rest with
    | nil =>
      obtain rfl : t = last := Option.some.inj hlast
      obtain ⟨after, hafter, hblank⟩ := blankBetween_eq_true hrest
      exact ⟨gap, after, by rw [hnode, toList_text hcs], hafter, hblank⟩
    | cons u rest =>
      rw [List.getLast?_cons_cons] at hlast
      obtain ⟨before, after, hbefore, hafter⟩ := ih hrest hlast
      refine ⟨gap ++ cs ++ before, after, ?_, hafter⟩
      rw [Text.slice?_trans hnode hbefore, List.append_assoc (gap ++ cs)]

/-- A decorator consists of an at sign, an expression and comments, with blanks between them. -/
structure Decorates (text : SourceText) (d : Tree) (expression : Tree) (comments : List Tree) :
    Prop where
  parts : ∃ sign, d.children = sign :: expression :: comments ∧
    sign.label.start = d.label.start ∧ text.text sign = "@" ∧
    text.spaced sign.label.stop d.label.stop (expression :: comments) = true
  bare : Text.isBare (text.text expression).toList = true
  comments_kind : ∀ c ∈ comments, c.kind = .comment
  comments_text : ∀ c ∈ comments, (text.text c).toList.head? = some '#'

/-- All that has to be checked of a decorator, once its parts are known. -/
theorem Decorates.of_checks {text : SourceText} {d sign expression : Tree} {comments : List Tree}
    (hchildren : d.children = sign :: expression :: comments)
    (hstart : sign.label.start = d.label.start)
    (hchecks : text.text sign = "@" ∧
      text.spaced sign.label.stop d.label.stop (expression :: comments) = true ∧
      Text.isBare (text.text expression).toList = true ∧
      ∀ c ∈ comments, c.kind = .comment ∧ (text.text c).toList.head? = some '#') :
    text.Decorates d expression comments :=
  let ⟨hsign, hspaced, hbare, hcomments⟩ := hchecks
  ⟨⟨sign, hchildren, hstart, hsign, hspaced⟩, hbare, fun c hc => (hcomments c hc).1,
    fun c hc => (hcomments c hc).2⟩

/-- What is read of the comments after an expression. -/
def remark (text : SourceText) (expression : Tree) (comments : List Tree) : List Char :=
  match comments.getLast? with
  | none => []
  | some last =>
    Text.dropWhileEnd Text.isBlank
      ((Text.slice? text.chars expression.label.stop last.label.stop).getD [])

/-- A decorator is read up to the end of its last comment. -/
theorem Decorates.trim_text {text : SourceText} {d expression : Tree} {comments : List Tree}
    (h : text.Decorates d expression comments) :
    Text.trim ((text.text d).toList.dropWhile (· == '@')) =
      (text.text expression).toList ++ text.remark expression comments := by
  obtain ⟨sign, _, hstart, hsign, hspaced⟩ := h.parts
  rw [spaced, Bool.and_eq_true, Bool.and_eq_true] at hspaced
  obtain ⟨⟨hgap, hexpression⟩, hcomments⟩ := hspaced
  obtain ⟨gap, hgap, hblank⟩ := blankBetween_eq_true hgap
  obtain ⟨code, hcode⟩ := Option.isSome_iff_exists.mp hexpression
  have hsignText : Text.slice? text.chars d.label.start sign.label.stop = some ['@'] := by
    rw [← hstart]
    cases hslice : Text.slice? text.chars sign.label.start sign.label.stop with
    | none => simp [SourceText.text, hslice] at hsign
    | some cs => rw [← toList_text hslice, hsign]; rfl
  have hbare := h.bare
  rw [toList_text hcode] at hbare ⊢
  -- What is left is the text from the expression to the end of the node.
  suffices hrest : ∃ rest, Text.slice? text.chars expression.label.stop d.label.stop = some rest ∧
      Text.dropWhileEnd Text.isBlank rest = text.remark expression comments by
    obtain ⟨rest, hslice, hremark⟩ := hrest
    have hall := Text.slice?_trans hsignText
      (Text.slice?_trans hgap (Text.slice?_trans hcode hslice))
    rw [toList_text hall, List.singleton_append, Text.trim_dropWhile_sign hblank hbare, hremark]
  unfold remark
  cases hlast : comments.getLast? with
  | none =>
    obtain rfl := List.getLast?_eq_none_iff.mp hlast
    obtain ⟨rest, hslice, hrest⟩ := blankBetween_eq_true hcomments
    exact ⟨rest, hslice, Text.dropWhileEnd_of_all hrest⟩
  | some last =>
    obtain ⟨before, after, hbefore, hafter, hrest⟩ := exists_slices_of_spaced hcomments hlast
    refine ⟨_, Text.slice?_trans hbefore hafter, ?_⟩
    simp only [Text.dropWhileEnd_append_of_all _ hrest, hbefore, Option.getD_some]

theorem Decorates.hash_mem_remark {text : SourceText} {d expression : Tree} {comments : List Tree}
    (h : text.Decorates d expression comments) (hcomments : comments ≠ []) :
    '#' ∈ text.remark expression comments := by
  obtain ⟨sign, _, _, _, hspaced⟩ := h.parts
  rw [spaced, Bool.and_eq_true] at hspaced
  obtain ⟨last, hlast⟩ : ∃ last, comments.getLast? = some last :=
    ⟨comments.getLast hcomments, List.getLast?_eq_some_getLast hcomments⟩
  obtain ⟨before, _, hbefore, _⟩ := exists_slices_of_spaced hspaced.2 hlast
  have hhash : '#' ∈ (text.text last).toList :=
    List.mem_of_head? (h.comments_text last (List.mem_of_getLast? hlast))
  rw [remark, hlast]
  simp only [hbefore, Option.getD_some]
  exact Text.mem_dropWhileEnd (List.mem_append_right _ hhash) (by decide)

end Syntax.SourceText

/-! ### Decorated functions -/

namespace Syntax

/-- Some decorator is `staticmethod` and nothing else. -/
def SourceText.plainlyStatic (text : SourceText) (parts : List (Tree × List Tree)) : Bool :=
  parts.any fun (expression, comments) =>
    text.text expression == "staticmethod" && comments.isEmpty

namespace Focus

/-- The function is decorated, and each of its decorators has the given expression and comments. -/
structure Decorated (text : SourceText) (f : Focus) (parts : List (Tree × List Tree)) : Prop where
  exists_parent : ∃ parent, f.parent? = some parent ∧ parent.kind = .decoratedDefinition ∧
    List.Forall₂ (fun d p => text.Decorates d p.1 p.2)
      (parent.namedChildren.filter (·.kind == .decorator)) parts

variable {text : SourceText} {f : Focus} {parts : List (Tree × List Tree)}

theorem Decorated.exists_decorates (h : f.Decorated text parts) {p : Tree × List Tree}
    (hp : p ∈ parts) : ∃ d, text.Decorates d p.1 p.2 := by
  obtain ⟨parent, _, _, hparts⟩ := h.exists_parent
  clear h
  generalize parent.namedChildren.filter (·.kind == .decorator) = decorators at hparts
  induction hparts with
  | nil => simp at hp
  | cons hd _ ih =>
    rcases List.mem_cons.mp hp with rfl | hp
    · exact ⟨_, hd⟩
    · exact ih hp

theorem Decorated.decoratorsOf_eq (h : f.Decorated text parts) :
    decoratorsOf text f =
      parts.map fun p => text.text p.1 ++ String.ofList (text.remark p.1 p.2) := by
  obtain ⟨parent, hparent, hkind, hparts⟩ := h.exists_parent
  simp only [decoratorsOf, hparent, if_pos hkind]
  clear h
  generalize parent.namedChildren.filter (·.kind == .decorator) = decorators at hparts
  induction hparts with
  | nil => rfl
  | cons hd _ ih =>
    rw [List.map_cons, List.map_cons, ih, hd.trim_text, String.ofList_append, String.ofList_toList]

/-- The expression alone is read exactly if no comment follows it. -/
theorem Decorated.append_remark_eq_iff (h : f.Decorated text parts) {p : Tree × List Tree}
    (hp : p ∈ parts) {name : String} (hname : '#' ∉ name.toList ∨ name = text.text p.1) :
    text.text p.1 ++ String.ofList (text.remark p.1 p.2) = name ↔
      text.text p.1 = name ∧ p.2 = [] := by
  obtain ⟨d, hd⟩ := h.exists_decorates hp
  by_cases hcomments : p.2 = []
  · have hremark : text.remark p.1 p.2 = [] := by rw [hcomments]; rfl
    rw [hremark, String.ofList_nil, String.append_empty]
    exact ⟨fun heq => ⟨heq, hcomments⟩, And.left⟩
  · have hhash := hd.hash_mem_remark hcomments
    refine ⟨fun heq => absurd ?_ hcomments, fun heq => absurd heq.2 hcomments⟩
    have hchars := congrArg String.toList heq
    rw [String.toList_append, String.toList_ofList] at hchars
    rcases hname with hname | rfl
    · exact absurd (hchars ▸ List.mem_append_right _ hhash) hname
    · rw [List.append_right_eq_self] at hchars
      simp [hchars] at hhash

theorem decorators_of_ofFocus? {s : Signature} (hs : Signature.ofFocus? text f = some s) :
    s.decorators = decoratorsOf text f := by
  unfold Signature.ofFocus? at hs
  split at hs
  · obtain ⟨name, _, rfl⟩ := Option.map_eq_some_iff.mp hs
    rfl
  · simp at hs

theorem Decorated.static_iff (h : f.Decorated text parts) :
    "staticmethod" ∈ decoratorsOf text f ↔ text.plainlyStatic parts = true := by
  rw [h.decoratorsOf_eq, List.mem_map, SourceText.plainlyStatic, List.any_eq_true]
  refine exists_congr fun p => and_congr_right fun hp => ?_
  rw [h.append_remark_eq_iff hp (.inl (by decide)), Bool.and_eq_true, beq_iff_eq,
    List.isEmpty_iff]

/-- Every decorator is read as its expression and the comments after it, so expressions are read as
they are exactly if there are no comments. A function in a class keeps its first positional
parameter only if some decorator is `staticmethod` without a comment. -/
theorem decorators_read_with_comments (h : f.Decorated text parts) :
    decoratorsOf text f =
      parts.map (fun p => text.text p.1 ++ String.ofList (text.remark p.1 p.2)) ∧
    (decoratorsOf text f = parts.map (fun p => text.text p.1) ↔ ∀ p ∈ parts, p.2 = []) ∧
    ∀ s, Signature.ofFocus? text f = some s → f.inClass = true →
      Position.visible s f.inClass =
        s.positional.drop (if text.plainlyStatic parts then 0 else 1) := by
  refine ⟨h.decoratorsOf_eq, ?_, fun s hs hclass => ?_⟩
  · rw [h.decoratorsOf_eq, List.map_inj_left]
    refine forall₂_congr fun p hp => ?_
    rw [h.append_remark_eq_iff hp (.inr rfl)]
    exact and_iff_right rfl
  · have hstatic := h.static_iff
    rw [← decorators_of_ofFocus? hs] at hstatic
    rw [Position.visible_eq, receivers]
    simp only [hclass, true_and, hstatic]
    cases text.plainlyStatic parts <;> rfl

end Focus

/-- A decorator that starts with an at sign and ends after its last part. -/
def Tree.decorating (start stop : Nat) (expression : Tree) (comments : List Tree) : Tree :=
  .span .decorator none start stop
    (.node ⟨.other "@", none, false, false, false, false, start, start + 1⟩ [] ::
      expression :: comments)

/-- The method `def m(a, b): pass`. -/
def Tree.shortMethod (start : Nat) : Tree :=
  .span .functionDefinition (some .definition) start (start + 17)
    [.span .identifier (some .name) (start + 4) (start + 5) [],
     .span .parameters (some .parameters) (start + 5) (start + 11)
       [.span .identifier none (start + 6) (start + 7) [],
        .span .identifier none (start + 9) (start + 10) []],
     .span .block (some .body) (start + 13) (start + 17) []]

def Tree.decoratedMethod (start : Nat) (decorators : List Tree) : Tree :=
  .span .decoratedDefinition none 13 (start + 17) (decorators ++ [.shortMethod start])

/-- A decorated method in a class. -/
def Tree.decoratedClass (start : Nat) (decorators : List Tree) : Tree :=
  .span .classDefinition none 0 (start + 17)
    [.span .identifier (some .name) 6 7 [],
     .span .block (some .body) 13 (start + 17) [.decoratedMethod start decorators]]

def Focus.decoratedMethod (start : Nat) (decorators : List Tree) : Focus where
  tree := .shortMethod start
  above :=
    [(.decoratedMethod start decorators, decorators.length),
     (.span .block (some .body) 13 (start + 17) [.decoratedMethod start decorators], 0),
     (.decoratedClass start decorators, 1)]

def cachedText : SourceText :=
  .ofChars "class A:\n    @cached  # slow\n    @ staticmethod\n    def m(a, b): pass\n".toList

def cachedDecorators : List Tree :=
  [.decorating 13 28 (.span .identifier none 14 20 []) [.span .comment none 22 28 []],
   .decorating 33 47 (.span .identifier none 35 47 []) []]

def cachedParts : List (Tree × List Tree) :=
  [(.span .identifier none 14 20 [], [.span .comment none 22 28 []]),
   (.span .identifier none 35 47 [], [])]

/-- The method is static, and one of its decorators is read with its comment. -/
theorem Focus.decorators_read_with_comments_cached :
    decoratorsOf cachedText (.decoratedMethod 52 cachedDecorators) =
      ["cached  # slow", "staticmethod"] ∧
    ∃ s, Signature.ofFocus? cachedText (.decoratedMethod 52 cachedDecorators) = some s ∧
      Position.visible s true = s.positional := by
  have hdecorated :
      (Focus.decoratedMethod 52 cachedDecorators).Decorated cachedText cachedParts := by
    refine ⟨_, rfl, rfl, .cons (.of_checks rfl rfl ?_) (.cons (.of_checks rfl rfl ?_) .nil)⟩ <;>
      decide +kernel
  obtain ⟨hread, _, hvisible⟩ := decorators_read_with_comments hdecorated
  refine ⟨hread.trans (by decide +kernel), _, rfl, ?_⟩
  have hclass : (Focus.decoratedMethod 52 cachedDecorators).inClass = true := by decide +kernel
  have hstatic : cachedText.plainlyStatic cachedParts = true := by decide +kernel
  have hall := hvisible _ rfl hclass
  rwa [hclass, hstatic, if_pos rfl, List.drop_zero] at hall

def notedText : SourceText :=
  .ofChars "class A:\n    @staticmethod  # note\n    def m(a, b): pass\n".toList

def notedDecorators : List Tree :=
  [.decorating 13 34 (.span .identifier none 14 26 []) [.span .comment none 28 34 []]]

/-- The only decorator of the method is `staticmethod` with a comment after it. It is not read as
its expression, and the first parameter of the method counts as a receiver. -/
theorem Focus.noted_static_method_loses_parameter :
    (Focus.decoratedMethod 39 notedDecorators).Decorated notedText
      [(.span .identifier none 14 26 [], [.span .comment none 28 34 []])] ∧
    notedText.text (.span .identifier none 14 26 []) = "staticmethod" ∧
    decoratorsOf notedText (.decoratedMethod 39 notedDecorators) ≠ ["staticmethod"] ∧
    (Focus.decoratedMethod 39 notedDecorators).inClass = true ∧
    (Signature.ofFocus? notedText (.decoratedMethod 39 notedDecorators)).map (fun s =>
      (s.positional.map (·.name), (Position.visible s true).map (·.name))) =
      some (["a", "b"], ["b"]) := by
  refine ⟨⟨_, rfl, rfl, .cons (.of_checks rfl rfl ?_) .nil⟩, ?_⟩ <;> decide +kernel

end Syntax

end Coupling
