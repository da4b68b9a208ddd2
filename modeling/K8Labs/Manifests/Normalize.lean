import K8Labs.Python.Sub
import K8Labs.Python.Text

/-!
# Resolving defaults in release manifests

`normalize` of `scripts/normalize_manifest.py` replaces `${NAME:=default}` by the default, in one
pass of a regular expression that ends a default at the **first** closing brace.

* `Splits.normalize_eq` : of the pieces of a text the expressions are replaced, and nothing else.
* `hasDefault_normalize_iff` : an expression is left exactly when replacing one has opened another:
  a nested one, or one that is put together from a default and the text beside it.
* `isNormal_iff` : otherwise the result is a fixed point without expressions.
-/

namespace Manifests

open Py (Matcher)

/-! ### The pattern -/

/-- `[A-Za-z_]`. -/
def isNameStart (c : Char) : Bool := c.isAlpha || c == '_'

/-- `[A-Za-z0-9_]`. -/
def isNameChar (c : Char) : Bool := c.isAlphanum || c == '_'

/-- What follows `[A-Za-z_][A-Za-z0-9_]*:=`. -/
def afterName : List Char → Option (List Char)
  | [] => none
  | c :: cs =>
    if isNameStart c then [':', '='].isPrefixOf? (cs.dropWhile isNameChar) else none

/-- `DEFAULT` at the start of a text: the group, and the rest behind the match. -/
def defaultAt : List Char → Option (List Char × List Char)
  | '$' :: '{' :: cs =>
    match afterName cs with
    | some body => Py.partition '}' body
    | none => none
  | _ => none

/-- `[A-Za-z_][A-Za-z0-9_]*`. -/
def IsName (name : List Char) : Prop :=
  ∃ c cs, name = c :: cs ∧ isNameStart c = true ∧ ∀ d ∈ cs, isNameChar d = true

/-- The start of an expression, up to its default. -/
def opener (name : List Char) : List Char := '$' :: '{' :: (name ++ [':', '='])

variable {name text rest body dflt u v : List Char}

theorem afterName_append (h : IsName name) (body : List Char) :
    afterName (name ++ ':' :: '=' :: body) = some body := by
  obtain ⟨c, cs, rfl, hc, hcs⟩ := h
  have hcolon : isNameChar ':' = false := by decide
  rw [List.cons_append, afterName, if_pos hc, List.dropWhile_append_of_pos hcs,
    List.dropWhile_cons_of_neg (by simp [hcolon])]
  exact Py.isPrefixOf?_append [':', '='] body

theorem afterName_eq_some (h : afterName text = some body) :
    ∃ name, IsName name ∧ text = name ++ ':' :: '=' :: body := by
  cases text with
  | nil => cases h
  | cons c cs =>
    rw [afterName] at h
    split_ifs at h with hc
    have hrest := Py.isPrefixOf?_eq_some h
    refine ⟨c :: cs.takeWhile isNameChar, ⟨c, _, rfl, hc, fun d hd => List.mem_takeWhile_imp hd⟩, ?_⟩
    rw [List.cons_append, List.cons.injEq]
    refine ⟨rfl, ?_⟩
    conv_lhs => rw [← List.takeWhile_append_dropWhile (p := isNameChar) (l := cs), hrest]
    rfl

/-- Behind an opener the first closing brace decides. -/
theorem defaultAt_opener (h : IsName name) (body : List Char) :
    defaultAt (opener name ++ body) = Py.partition '}' body := by
  have htext : opener name ++ body = '$' :: '{' :: (name ++ ':' :: '=' :: body) := by simp [opener]
  rw [htext, defaultAt, afterName_append h]

theorem defaultAt_eq_some (h : defaultAt text = some (dflt, rest)) :
    ∃ name, IsName name ∧ text = opener name ++ (dflt ++ '}' :: rest) ∧ '}' ∉ dflt := by
  unfold defaultAt at h
  split at h
  · next cs =>
    split at h
    · next body hbody =>
      obtain ⟨name, hname, rfl⟩ := afterName_eq_some hbody
      obtain ⟨rfl, hplain⟩ := Py.partition_eq_some h
      exact ⟨name, hname, by simp [opener], hplain⟩
    · cases h
  · cases h

/-- `DEFAULT`, with its group as the replacement. -/
def pattern : Matcher Char where
  matchAt := defaultAt
  consumes := by
    intro text r rest h
    obtain ⟨name, -, rfl, -⟩ := defaultAt_eq_some h
    exact ⟨'$', '{' :: (name ++ [':', '=']) ++ (r ++ ['}']), by simp [opener]⟩

/-- `normalize`. -/
def normalize (text : List Char) : List Char := pattern.sub text

/-! ### Expressions -/

/-- An expression `${NAME:=default}`. -/
structure DefaultExpr where
  name : List Char
  dflt : List Char
  isName : IsName name
  plain : '}' ∉ dflt

/-- The text of an expression. -/
def DefaultExpr.source (e : DefaultExpr) : List Char := opener e.name ++ (e.dflt ++ ['}'])

/-- The text has an expression. -/
def HasDefault (text : List Char) : Prop := ∃ e : DefaultExpr, e.source <:+: text

/-- An expression is an opener with a closing brace somewhere behind it. -/
theorem hasDefault_iff : HasDefault text ↔
    ∃ u name v, IsName name ∧ text = u ++ (opener name ++ v) ∧ '}' ∈ v := by
  constructor
  · rintro ⟨e, u, v, rfl⟩
    refine ⟨u, e.name, e.dflt ++ '}' :: v, e.isName, ?_, by simp⟩
    simp [DefaultExpr.source]
  · rintro ⟨u, name, v, hname, rfl, hbrace⟩
    obtain ⟨dflt, w, rfl, hplain⟩ := List.eq_append_cons_of_mem hbrace
    exact ⟨⟨name, dflt, hname, hplain⟩, u, w, by simp [DefaultExpr.source]⟩

theorem exists_defaultAt (hname : IsName name) (hbrace : '}' ∈ v) :
    ∃ dflt rest, defaultAt (opener name ++ v) = some (dflt, rest) := by
  obtain ⟨dflt, w, rfl, hplain⟩ := List.eq_append_cons_of_mem hbrace
  exact ⟨dflt, w, by rw [defaultAt_opener hname, Py.partition_append hplain]⟩

theorem defaultAt_source (e : DefaultExpr) (rest : List Char) :
    defaultAt (e.source ++ rest) = some (e.dflt, rest) := by
  have hsource : e.source ++ rest = opener e.name ++ (e.dflt ++ '}' :: rest) := by
    simp [DefaultExpr.source]
  rw [hsource, defaultAt_opener e.isName, Py.partition_append e.plain]

theorem length_lt_of_defaultAt (h : defaultAt text = some (dflt, rest)) :
    (dflt ++ rest).length < text.length := by
  obtain ⟨name, -, rfl, -⟩ := defaultAt_eq_some h
  simp [opener]
  omega

/-- **A fixed point is a text without expressions.** -/
theorem normalize_eq_self_iff : normalize text = text ↔ ¬ HasDefault text := by
  rw [normalize, pattern.sub_eq_self_iff fun h => length_lt_of_defaultAt h, hasDefault_iff]
  constructor
  · rintro h ⟨u, name, v, hname, rfl, hbrace⟩
    obtain ⟨dflt, rest, hmatch⟩ := exists_defaultAt hname hbrace
    have hnone : defaultAt (opener name ++ v) = none := h _ (List.suffix_append u _)
    rw [hnone] at hmatch
    cases hmatch
  · intro h suffix hsuffix
    obtain ⟨u, rfl⟩ := hsuffix
    cases hmatch : pattern.matchAt suffix with
    | none => rfl
    | some found =>
      obtain ⟨dflt, rest⟩ := found
      obtain ⟨name, hname, rfl, -⟩ := defaultAt_eq_some hmatch
      exact absurd ⟨u, name, dflt ++ '}' :: rest, hname, rfl, by simp⟩ h

/-! ### Pieces -/

/-- A piece of a text: a character outside expressions, or an expression. -/
inductive Piece where
  | outside (c : Char)
  | expr (e : DefaultExpr)

namespace Piece

/-- What a piece is before. -/
def before : Piece → List Char
  | outside c => [c]
  | expr e => e.source

/-- What a piece is afterwards. -/
def after : Piece → List Char
  | outside c => [c]
  | expr e => e.dflt

end Piece

/-- The text of the pieces, with each expression replaced by its default. -/
def unwrapped (pieces : List Piece) : List Char := pieces.flatMap Piece.after

/-- The pieces of a text, from the left: no expression begins at a character outside. -/
structure Splits (text : List Char) (pieces : List Piece) : Prop where
  before : text = pieces.flatMap Piece.before
  leftmost : ∀ xs c ys, pieces = xs ++ .outside c :: ys →
    ∀ e : DefaultExpr, ¬ e.source <+: c :: ys.flatMap Piece.before

variable {pieces : List Piece} {p : Piece}

namespace Splits

theorem nil : Splits [] [] := ⟨rfl, fun _ _ _ h => absurd h (by simp)⟩

theorem tail (h : Splits text (p :: pieces)) : Splits (pieces.flatMap Piece.before) pieces :=
  ⟨rfl, fun xs c ys hsplit => h.leftmost (p :: xs) c ys (by rw [hsplit, List.cons_append])⟩

theorem cons (h : Splits rest pieces) (p : Piece)
    (hfirst : ∀ c, p = .outside c → ∀ e : DefaultExpr, ¬ e.source <+: c :: rest) :
    Splits (p.before ++ rest) (p :: pieces) := by
  refine ⟨by rw [List.flatMap_cons, ← h.before], fun xs c ys hsplit => ?_⟩
  cases xs with
  | nil =>
    obtain ⟨rfl, rfl⟩ := List.cons.inj hsplit
    rw [← h.before]
    exact hfirst c rfl
  | cons x xs => exact h.leftmost xs c ys (List.cons.inj hsplit).2

end Splits

/-- What is found at the start of a text is an expression there. -/
theorem defaultAt_eq_none : defaultAt text = none ↔ ∀ e : DefaultExpr, ¬ e.source <+: text := by
  constructor
  · rintro h e ⟨rest, rfl⟩
    rw [defaultAt_source] at h
    cases h
  · intro h
    rw [Option.eq_none_iff_forall_ne_some]
    rintro ⟨dflt, rest⟩ hmatch
    obtain ⟨name, hname, rfl, hplain⟩ := defaultAt_eq_some hmatch
    exact h ⟨name, dflt, hname, hplain⟩ ⟨rest, by simp [DefaultExpr.source]⟩

/-- Every expression of the pieces is replaced, and nothing else. -/
theorem Splits.normalize_eq (h : Splits text pieces) : normalize text = unwrapped pieces := by
  induction pieces generalizing text with
  | nil => rw [h.before]; rfl
  | cons p pieces ih =>
    rw [unwrapped, List.flatMap_cons, ← unwrapped, ← ih h.tail, h.before, List.flatMap_cons]
    cases p with
    | outside c => exact pattern.sub_of_none (defaultAt_eq_none.2 (h.leftmost [] c pieces rfl))
    | expr e => exact pattern.sub_of_some (defaultAt_source e _)

theorem exists_splits (text : List Char) : ∃ pieces, Splits text pieces := by
  induction text using pattern.sub_induction with
  | nil => exact ⟨[], .nil⟩
  | found text dflt rest hmatch ih =>
    obtain ⟨pieces, hpieces⟩ := ih
    obtain ⟨name, hname, rfl, hplain⟩ := defaultAt_eq_some hmatch
    let e : DefaultExpr := ⟨name, dflt, hname, hplain⟩
    have hsource : e.source ++ rest = opener name ++ (dflt ++ '}' :: rest) := by
      simp [e, DefaultExpr.source]
    have hfirst : ∀ c, Piece.expr e = .outside c →
        ∀ e : DefaultExpr, ¬ e.source <+: c :: rest := fun c hc => by cases hc
    exact ⟨.expr e :: pieces, hsource ▸ hpieces.cons (.expr e) hfirst⟩
  | skipped c cs hmatch ih =>
    obtain ⟨pieces, hpieces⟩ := ih
    refine ⟨.outside c :: pieces, hpieces.cons (.outside c) ?_⟩
    rintro d ⟨⟩
    exact defaultAt_eq_none.1 hmatch

/-! ### What a replacement opens -/

@[simp] theorem unwrapped_nil : unwrapped [] = [] := rfl

@[simp] theorem unwrapped_cons (p : Piece) (pieces : List Piece) :
    unwrapped (p :: pieces) = p.after ++ unwrapped pieces := List.flatMap_cons

theorem unwrapped_append (ps qs : List Piece) :
    unwrapped (ps ++ qs) = unwrapped ps ++ unwrapped qs := List.flatMap_append

/-- Replacing the expressions opens one: a default holds an opener, or neighbouring pieces with an
expression among them make one up, of the end of the first, the middle ones and the start of the last;
and a closing brace outside the expressions follows. -/
inductive Opens : List Piece → Prop
  | nested {ps qs : List Piece} {e : DefaultExpr} {name : List Char} (hname : IsName name)
      (hinside : opener name <:+: e.dflt) (hbrace : .outside '}' ∈ qs) :
      Opens (ps ++ .expr e :: qs)
  | joined {ps middle qs : List Piece} {first last : Piece} {name start stop : List Char}
      (hname : IsName name) (hopener : opener name = start ++ (unwrapped middle ++ stop))
      (hstart : start ≠ [] ∧ start <:+ first.after) (hstop : stop ≠ [] ∧ stop <+: last.after)
      (hexpr : ∃ e, .expr e ∈ first :: (middle ++ [last])) (hbrace : .outside '}' ∈ qs) :
      Opens (ps ++ first :: (middle ++ last :: qs))

/-- Replacing the expressions of the text opens one. -/
def Reopens (text : List Char) : Prop := ∃ pieces, Splits text pieces ∧ Opens pieces

variable {qs : List Piece} {c : Char}

/-- Defaults have no closing brace. -/
theorem brace_mem_unwrapped : '}' ∈ unwrapped pieces ↔ .outside '}' ∈ pieces := by
  constructor
  · intro h
    obtain ⟨p, hp, hc⟩ := List.mem_flatMap.1 h
    cases p with
    | outside d => rwa [List.mem_singleton.1 hc]
    | expr e => exact absurd hc e.plain
  · exact fun h => List.mem_flatMap.2 ⟨_, h, List.mem_singleton.2 rfl⟩

/-- A closing brace behind a character of a piece is outside, behind the piece. -/
theorem outside_of_brace {x y : List Char} (hp : p.after = x ++ c :: y)
    (hbrace : '}' ∈ y ++ unwrapped qs) : .outside '}' ∈ qs := by
  refine brace_mem_unwrapped.1 ((List.mem_append.1 hbrace).resolve_left fun hy => ?_)
  cases p with
  | outside d =>
    have hlength := congrArg List.length hp
    have hpos := List.length_pos_of_mem hy
    simp only [Piece.after, List.length_append, List.length_cons, List.length_nil] at hlength
    omega
  | expr e =>
    have hdflt : e.dflt = x ++ c :: y := hp
    exact e.plain (by simp [hdflt, hy])

/-- Every character of the unwrapped text is in a piece. -/
theorem exists_piece (h : unwrapped pieces = u ++ c :: v) :
    ∃ ps p qs x y, pieces = ps ++ p :: qs ∧ p.after = x ++ c :: y ∧ u = unwrapped ps ++ x ∧
      v = y ++ unwrapped qs := by
  induction pieces generalizing u with
  | nil => exact absurd h (by simp)
  | cons p pieces ih =>
    rw [unwrapped_cons] at h
    have hbehind : ∀ x, unwrapped pieces = x ++ c :: v → u = p.after ++ x →
        ∃ ps q qs x y, p :: pieces = ps ++ q :: qs ∧ q.after = x ++ c :: y ∧
          u = unwrapped ps ++ x ∧ v = y ++ unwrapped qs := by
      rintro x hrest rfl
      obtain ⟨ps, q, qs, x', y, rfl, hq, rfl, rfl⟩ := ih hrest
      exact ⟨p :: ps, q, qs, x', y, rfl, hq, by simp, rfl⟩
    rcases List.append_eq_append_iff.1 h with ⟨x, hu, hrest⟩ | ⟨y, hp, hrest⟩
    · exact hbehind x hrest hu
    · cases y with
      | nil => exact hbehind [] hrest.symm (by simp [hp])
      | cons d y =>
        obtain ⟨rfl, rfl⟩ := List.cons.inj hrest
        exact ⟨[], p, pieces, u, y, rfl, hp, rfl, rfl⟩

/-- Pieces without an expression are what they were. -/
theorem before_eq_unwrapped (h : ∀ e, .expr e ∉ pieces) :
    pieces.flatMap Piece.before = unwrapped pieces := by
  induction pieces with
  | nil => rfl
  | cons p pieces ih =>
    rw [List.flatMap_cons, unwrapped_cons, ih fun e he => h e (List.mem_cons_of_mem p he)]
    cases p with
    | outside d => rfl
    | expr e => exact absurd List.mem_cons_self (h e)

/-- No opener with a closing brace behind it begins at a character outside, as the text was. -/
theorem Splits.not_opener {ps : List Piece} (h : Splits text (ps ++ .outside c :: qs))
    (hname : IsName name) (hbrace : '}' ∈ v) :
    c :: qs.flatMap Piece.before ≠ opener name ++ v := by
  intro heq
  obtain ⟨dflt, w, rfl, hplain⟩ := List.eq_append_cons_of_mem hbrace
  refine h.leftmost ps c qs rfl ⟨name, dflt, hname, hplain⟩ ⟨w, ?_⟩
  rw [heq]
  simp [DefaultExpr.source]

/-- An expression in the unwrapped text was opened by a replacement. -/
theorem Splits.opens_of_opener (hsplits : Splits text pieces) (hname : IsName name)
    (h : unwrapped pieces = u ++ (opener name ++ v)) (hbrace : '}' ∈ v) : Opens pieces := by
  obtain ⟨ps, first, qs, x, y, rfl, hfirst, -, hrest⟩ := exists_piece h
  have hinside : ∀ z, y = '{' :: (name ++ [':', '=']) ++ z → v = z ++ unwrapped qs →
      Opens (ps ++ first :: qs) := by
    rintro z rfl rfl
    cases first with
    | outside d =>
      have hlength := congrArg List.length hfirst
      simp only [Piece.after, List.length_append, List.length_cons, List.length_nil] at hlength
      omega
    | expr e =>
      have hdflt : e.dflt = x ++ opener name ++ z := by
        rw [List.append_assoc]
        exact hfirst
      exact .nested hname ⟨x, z, hdflt.symm⟩ (outside_of_brace hfirst (by simp_all))
  rcases List.append_eq_append_iff.1 hrest with ⟨z, hy, hv⟩ | ⟨t, hopener, hqs⟩
  · exact hinside z hy hv
  rcases List.eq_nil_or_concat' t with rfl | ⟨t, d, rfl⟩
  · exact hinside [] (by simpa using hopener.symm) hqs.symm
  -- the opener ends in a later piece
  rw [List.append_assoc] at hqs
  obtain ⟨middle, last, rest, x', y', rfl, hlast, rfl, rfl⟩ := exists_piece hqs
  have houtside := outside_of_brace hlast hbrace
  by_cases hexpr : ∃ e, .expr e ∈ first :: (middle ++ [last])
  · have hwhole : opener name = ('$' :: y) ++ (unwrapped middle ++ (x' ++ [d])) := by
      rw [opener, hopener]
      simp
    exact .joined hname hwhole ⟨by simp, x, hfirst.symm⟩ ⟨by simp, y', by simp [hlast]⟩ hexpr
      houtside
  · -- all of it was there before
    cases first with
    | expr e => exact absurd ⟨e, List.mem_cons_self⟩ hexpr
    | outside c =>
      obtain ⟨rfl, rfl⟩ : c = '$' ∧ y = [] := by
        rcases List.append_eq_singleton_iff.1 hfirst.symm with ⟨-, hc⟩ | ⟨-, hc⟩
        · exact ⟨(List.cons.inj hc).1.symm, (List.cons.inj hc).2⟩
        · cases hc
      have hsame : (middle ++ [last]).flatMap Piece.before = unwrapped middle ++ last.after := by
        rw [before_eq_unwrapped fun e he => hexpr ⟨e, List.mem_cons_of_mem _ he⟩, unwrapped_append]
        simp
      have hbrace' : '}' ∈ y' ++ rest.flatMap Piece.before :=
        List.mem_append_right _ (List.mem_flatMap.2
          ⟨.outside '}', houtside, List.mem_singleton.2 rfl⟩)
      refine absurd ?_ (hsplits.not_opener hname hbrace')
      rw [List.append_cons, List.flatMap_append, hsame, hlast, opener, hopener]
      simp

/-- **An expression is left exactly when a replacement has opened it.** -/
theorem hasDefault_normalize_iff : HasDefault (normalize text) ↔ Reopens text := by
  rw [hasDefault_iff]
  constructor
  · rintro ⟨u, name, v, hname, h, hbrace⟩
    obtain ⟨pieces, hsplits⟩ := exists_splits text
    exact ⟨pieces, hsplits, hsplits.opens_of_opener hname (hsplits.normalize_eq ▸ h) hbrace⟩
  · rintro ⟨pieces, hsplits, hopens⟩
    rw [hsplits.normalize_eq]
    cases hopens with
    | @nested ps qs e name hname hinside hbrace =>
      obtain ⟨x, y, hdflt⟩ := hinside
      refine ⟨unwrapped ps ++ x, name, y ++ unwrapped qs, hname, ?_,
        List.mem_append_right _ (brace_mem_unwrapped.2 hbrace)⟩
      rw [unwrapped_append, unwrapped_cons, Piece.after, ← hdflt]
      simp
    | @joined ps middle qs first last name start stop hname hopener hstart hstop _ hbrace =>
      obtain ⟨-, x, hfirst⟩ := hstart
      obtain ⟨-, y, hlast⟩ := hstop
      refine ⟨unwrapped ps ++ x, name, y ++ unwrapped qs, hname, ?_,
        List.mem_append_right _ (brace_mem_unwrapped.2 hbrace)⟩
      rw [hopener, unwrapped_append, unwrapped_cons, unwrapped_append, unwrapped_cons, ← hfirst,
        ← hlast]
      simp

/-- What `normalize` is for. -/
structure IsNormal (text : List Char) : Prop where
  resolved : ¬ HasDefault (normalize text)
  idempotent : normalize (normalize text) = normalize text
  outside : ∃ pieces, Splits text pieces ∧ normalize text = unwrapped pieces

/-- **The result has no expression and is a fixed point exactly when no replacement opens one.** -/
theorem isNormal_iff (text : List Char) : IsNormal text ↔ ¬ Reopens text := by
  rw [← hasDefault_normalize_iff]
  refine ⟨fun h => h.resolved, fun h => ⟨h, normalize_eq_self_iff.2 h, ?_⟩⟩
  obtain ⟨pieces, hsplits⟩ := exists_splits text
  exact ⟨pieces, hsplits, hsplits.normalize_eq⟩

theorem nested_reopens : ¬ IsNormal "$\x7bA:=$\x7bB:=x\x7d\x7d".toList := by
  intro h
  exact absurd h.idempotent (by decide)

end Manifests
