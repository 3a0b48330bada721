import Statechart.Proofs.Target.Function
import Statechart.Proofs.Text
import Statechart.Target.Layout

/-!
Comments in front of a text, and how a text begins.

A text that follows comments is lexed as if they were not there. The layout of a file of marked
functions begins with a marker, so nothing in front of it is taken for the name of an interpreter.
-/
set_option autoImplicit false

namespace Statechart.Target

namespace Lexer

theorem length_restOfLine (cs : List Char) : (restOfLine cs).length ≤ cs.length := by
  fun_induction restOfLine cs with
  | case1 => simp
  | case2 cs => simp
  | case3 cs => simp
  | case4 c cs _ _ ih => exact Nat.le_succ_of_le ih

theorem length_closeComment {depth : Nat} {cs rest : List Char}
    (h : closeComment depth cs = some rest) : rest.length ≤ cs.length := by
  fun_induction closeComment depth cs with
  | case1 depth cs ih =>
    have := ih h
    simp only [List.length_cons]
    omega
  | case2 cs => cases h
  | case3 cs =>
    cases h
    simp only [List.length_cons]
    omega
  | case4 cs d ih =>
    have := ih h
    simp only [List.length_cons]
    omega
  | case5 depth c cs _ _ ih =>
    have := ih h
    simp only [List.length_cons]
    omega
  | case6 => cases h

theorem dropHeadChars?_append_newline {head : List Char} (h : '\n' ∉ head) (cs rest : List Char) :
    Text.dropHeadChars? head (cs ++ '\n' :: rest) =
      (Text.dropHeadChars? head cs).map (· ++ '\n' :: rest) := by
  induction head generalizing cs with
  | nil => simp [Text.dropHeadChars?]
  | cons x head ih =>
    obtain ⟨hx, hhead⟩ := not_or.1 (mt List.mem_cons.2 h)
    cases cs with
    | nil => simp [Text.dropHeadChars?, Ne.symm hx]
    | cons c cs =>
      by_cases hc : x = c
      · simp [Text.dropHeadChars?, hc, ih hhead]
      · simp [Text.dropHeadChars?, hc]

theorem hasHead_append_newline {head : String} (h : '\n' ∉ head.toList) (cs rest : List Char) :
    hasHead head (cs ++ '\n' :: rest) = hasHead head cs := by
  simp [hasHead, dropHeadChars?_append_newline h]

theorem restOfLine_append_newline (cs rest : List Char) :
    restOfLine (cs ++ '\n' :: rest) = restOfLine cs ++ '\n' :: rest := by
  fun_induction restOfLine cs with
  | case1 => rfl
  | case2 cs => rfl
  | case3 cs => rfl
  | case4 c cs hn hr ih =>
    cases cs with
    | nil =>
      -- a return at the end is one with the line feed
      by_cases hc : c = '\r'
      · simp [restOfLine, hc]
      · simp [restOfLine, hc]
    | cons d cs =>
      rw [List.cons_append, restOfLine]
      · exact ih
      · exact hn
      · intro cs' hc hcs
        exact hr _ hc (by rw [List.cons_append] at hcs; rw [(List.cons.inj hcs).1])

theorem closeComment_append {depth : Nat} {cs after : List Char}
    (h : closeComment depth cs = some after) (rest : List Char) :
    closeComment depth (cs ++ rest) = some (after ++ rest) := by
  fun_induction closeComment depth cs with
  | case1 depth cs ih => exact ih h
  | case2 cs => cases h
  | case3 cs =>
    cases h
    rfl
  | case4 cs d ih => exact ih h
  | case5 depth c cs hopen hclose ih =>
    cases cs with
    | nil => cases h
    | cons d cs =>
      rw [List.cons_append, closeComment]
      · exact ih h
      · intro cs' hc hcs
        exact hopen cs hc (by rw [(List.cons.inj hcs).1])
      · intro cs' hc hcs
        exact hclose cs hc (by rw [(List.cons.inj hcs).1])
  | case6 => cases h

theorem eq_append_of_hasHead {head : String} {cs : List Char} (h : hasHead head cs = true) :
    ∃ rest, cs = head.toList ++ rest := by
  have hchars : ∀ head cs : List Char, (Text.dropHeadChars? head cs).isSome = true →
      ∃ rest, cs = head ++ rest := by
    intro head
    induction head with
    | nil => exact fun cs _ => ⟨cs, rfl⟩
    | cons x head ih =>
      intro cs h
      cases cs with
      | nil => simp [Text.dropHeadChars?] at h
      | cons c cs =>
        by_cases hx : x = c
        · rw [Text.dropHeadChars?, if_pos hx] at h
          obtain ⟨rest, rfl⟩ := ih cs h
          exact ⟨rest, by rw [hx]; rfl⟩
        · simp [Text.dropHeadChars?, hx] at h
  exact hchars _ _ h

theorem plainComment_cases {cs after : List Char} (h : plainComment cs = some after) :
    (∃ cs', cs = '/' :: '/' :: cs' ∧ after = restOfLine cs') ∨
      ∃ cs', cs = '/' :: '*' :: cs' ∧ closeComment 1 cs' = some after := by
  unfold plainComment at h
  split at h
  · rename_i hline
    simp only [Bool.and_eq_true] at hline
    obtain ⟨cs', rfl⟩ := eq_append_of_hasHead hline.1.1
    exact .inl ⟨cs', rfl, (Option.some.inj h).symm⟩
  · split at h
    · rename_i hempty
      obtain ⟨cs', rfl⟩ := eq_append_of_hasHead hempty
      exact .inr ⟨'*' :: '/' :: cs', rfl, h⟩
    · split at h
      · rename_i hblock
        simp only [Bool.and_eq_true] at hblock
        obtain ⟨cs', rfl⟩ := eq_append_of_hasHead hblock.1.1
        exact .inr ⟨cs', rfl, h⟩
      · cases h

theorem length_plainComment {cs after : List Char} (h : plainComment cs = some after) :
    after.length < cs.length := by
  obtain ⟨cs', rfl, rfl⟩ | ⟨cs', rfl, hclose⟩ := plainComment_cases h
  · have := length_restOfLine cs'
    simp only [List.length_cons]
    omega
  · have := length_closeComment hclose
    simp only [List.length_cons]
    omega

/-- Whether a comment stands at the front does not depend on the lines after it. -/
theorem plainComment_append_newline {cs after : List Char} (h : plainComment cs = some after)
    (rest : List Char) : plainComment (cs ++ '\n' :: rest) = some (after ++ '\n' :: rest) := by
  have hheads : ∀ head ∈ ["//", "///", "////", "//!", "/**/", "/*", "/**", "/***", "/*!"],
      hasHead head (cs ++ '\n' :: rest) = hasHead head cs := by
    intro head hhead
    exact hasHead_append_newline ((by decide : ∀ head ∈ ["//", "///", "////", "//!", "/**/", "/*",
      "/**", "/***", "/*!"], '\n' ∉ head.toList) head hhead) cs rest
  simp only [List.forall_mem_cons] at hheads
  unfold plainComment at h ⊢
  simp only [hheads] at h ⊢
  split at h
  · rename_i hline
    simp only [hline, if_true]
    rw [restOfLine_append_newline, Option.some.inj h]
  · rename_i hline
    simp only [hline]
    split at h
    · rename_i hempty
      simp only [hempty, if_true]
      obtain ⟨cs', rfl⟩ := eq_append_of_hasHead hempty
      obtain rfl : cs' = after := Option.some.inj h
      rfl
    · rename_i hempty
      simp only [hempty]
      split at h
      · rename_i hblock
        simp only [hblock, if_true]
        simp only [Bool.and_eq_true] at hblock
        obtain ⟨cs', rfl⟩ := eq_append_of_hasHead hblock.1.1
        exact closeComment_append h _
      · cases h

theorem plainComment_of_ne {c : Char} (h : c ≠ '/') (cs : List Char) :
    plainComment (c :: cs) = none := by
  cases hp : plainComment (c :: cs) with
  | none => rfl
  | some after =>
    obtain ⟨_, hcs, -⟩ | ⟨_, hcs, -⟩ := plainComment_cases hp
    · exact absurd (List.cons.inj hcs).1 h
    · exact absurd (List.cons.inj hcs).1 h

theorem skip_of_plainComment {cs after : List Char} (h : plainComment cs = some after) (n : Nat) :
    skip (n + 1) cs = skip n after := by
  rw [skip.eq_def]
  simp only [h]

theorem skip_cons {c : Char} {cs : List Char} (h : plainComment (c :: cs) = none) (n : Nat) :
    skip (n + 1) (c :: cs) = if isSeparator c then skip n cs else c :: cs := by
  rw [skip.eq_def]
  simp only [h]

/-- With as much fuel as there are characters, all blanks and comments are skipped. -/
theorem skip_congr {n m : Nat} {cs : List Char} (hn : cs.length ≤ n) (hm : cs.length ≤ m) :
    skip n cs = skip m cs := by
  have hnil : ∀ n, skip n [] = [] := by
    intro n
    cases n with
    | zero => rfl
    | succ n => rfl
  induction n generalizing m cs with
  | zero =>
    obtain rfl := List.length_eq_zero_iff.1 (Nat.le_zero.1 hn)
    rw [hnil, hnil]
  | succ n ih =>
    cases m with
    | zero =>
      obtain rfl := List.length_eq_zero_iff.1 (Nat.le_zero.1 hm)
      rw [hnil, hnil]
    | succ m =>
      cases hp : plainComment cs with
      | some after =>
        have := length_plainComment hp
        rw [skip_of_plainComment hp, skip_of_plainComment hp]
        exact ih (by omega) (by omega)
      | none =>
        cases cs with
        | nil => rw [hnil, hnil]
        | cons c cs =>
          simp only [List.length_cons, Nat.add_le_add_iff_right] at hn hm
          rw [skip_cons hp, skip_cons hp, ih hn hm]

def IsComment (cs : List Char) : Prop :=
  skip cs.length cs = []

theorem restOfLine_of_not_mem {cs : List Char} (h : '\n' ∉ cs) : restOfLine cs = [] := by
  fun_induction restOfLine cs with
  | case1 => rfl
  | case2 cs => simp at h
  | case3 cs => simp at h
  | case4 c cs _ _ ih => exact ih (fun hmem => h (List.mem_cons_of_mem c hmem))

theorem isComment_line {cs : List Char} (h : '\n' ∉ cs) :
    IsComment ('/' :: '/' :: ' ' :: cs) := by
  have hcomment : plainComment ('/' :: '/' :: ' ' :: cs) = some [] := by
    have hline : restOfLine ('/' :: '/' :: ' ' :: cs) = [] :=
      restOfLine_of_not_mem (by simpa using h)
    simp [plainComment, hasHead, Text.dropHeadChars?, hline]
  rw [IsComment, List.length_cons, skip_of_plainComment hcomment]
  rfl

theorem skip_comment {n : Nat} {cs : List Char} (h : skip n cs = []) (hn : cs.length ≤ n)
    (rest : List Char) :
    skip (cs ++ '\n' :: rest).length (cs ++ '\n' :: rest) = skip rest.length rest := by
  have hline : skip ('\n' :: rest).length ('\n' :: rest) = skip rest.length rest :=
    skip_cons (plainComment_of_ne (by decide) rest) rest.length
  induction n generalizing cs with
  | zero =>
    obtain rfl := List.length_eq_zero_iff.1 (Nat.le_zero.1 hn)
    exact hline
  | succ n ih =>
    cases hp : plainComment cs with
    | some after =>
      rw [skip_of_plainComment hp] at h
      have hless := length_plainComment hp
      have hpos : (cs ++ '\n' :: rest).length = (cs.length + rest.length) + 1 := by
        simp only [List.length_append, List.length_cons]
        omega
      rw [hpos, skip_of_plainComment (plainComment_append_newline hp rest)]
      refine (skip_congr ?_ le_rfl).trans (ih h (by omega))
      simp only [List.length_append, List.length_cons]
      omega
    | none =>
      cases cs with
      | nil => exact hline
      | cons c cs =>
        rw [skip_cons hp] at h
        have hc : isSeparator c = true := by
          by_contra hc
          simp [hc] at h
        have hne : c ≠ '/' := by
          intro hslash
          rw [hslash] at hc
          exact absurd hc (by decide)
        rw [if_pos hc] at h
        rw [List.cons_append, List.length_cons, skip_cons (plainComment_of_ne hne _), if_pos hc]
        exact ih h (by simpa using hn)

/-- What the lexer does where nothing is left to skip: it stops, or goes on with other groups,
tokens and characters. -/
def advance (frames : List Frame) (done : List Token) (cs : List Char) :
    Option (List Token) ⊕ (List Frame × List Token × List Char) :=
  match docComment? cs with
  | some (text, inner, rest) =>
    if noBareReturn text then .inr (frames, (docTokens text inner).reverse ++ done, rest)
    else .inl none
  | none =>
    match cs with
    | [] => .inl (if frames.isEmpty then some done.reverse else none)
    | c :: rest =>
      match opens c with
      | some d => .inr ((done, d) :: frames, [], rest)
      | none =>
        match closes c with
        | some d =>
          match frames with
          | (before, opened) :: outer =>
            if opened = d then .inr (outer, .group d done.reverse :: before, rest) else .inl none
          | [] => .inl none
        | none =>
          match leaf? cs with
          | some (t, rest) => .inr (frames, t :: done, rest)
          | none => .inl none

theorem run_eq (n : Nat) (frames : List Frame) (done : List Token) (cs : List Char) :
    run (n + 1) frames done cs =
      (advance frames done (skip (cs.length + 1) cs)).elim id
        fun next => run n next.1 next.2.1 next.2.2 := by
  rw [run.eq_def]
  dsimp only
  generalize skip (cs.length + 1) cs = cs
  unfold advance
  cases hdoc : docComment? cs with
  | some found =>
    obtain ⟨text, inner, rest⟩ := found
    by_cases hbare : noBareReturn text = true <;> simp [hbare]
  | none =>
    cases cs with
    | nil => rfl
    | cons c rest =>
      cases hopen : opens c with
      | some d => simp [hopen]
      | none =>
        cases hclose : closes c with
        | some d =>
          cases frames with
          | nil => simp [hopen, hclose]
          | cons frame outer =>
            obtain ⟨before, opened⟩ := frame
            by_cases hd : opened = d <;> simp [hopen, hclose, hd]
        | none => cases leaf? (c :: rest) <;> simp [hopen, hclose]

theorem run_mono {n m : Nat} {frames : List Frame} {done ts : List Token} {cs : List Char}
    (h : run n frames done cs = some ts) (hm : n ≤ m) : run m frames done cs = some ts := by
  induction n generalizing m frames done cs with
  | zero => cases h
  | succ n ih =>
    obtain ⟨m, rfl⟩ : ∃ k, m = k + 1 := ⟨m - 1, by omega⟩
    rw [run_eq] at h ⊢
    cases hstep : advance frames done (skip (cs.length + 1) cs) with
    | inl result => simpa [hstep] using h
    | inr next =>
      rw [hstep] at h
      exact ih h (by omega)

theorem run_comment {cs rest : List Char} {ts : List Token} (h : IsComment cs)
    (hrest : run (rest.length + 1) [] [] rest = some ts) :
    run ((cs ++ '\n' :: rest).length + 1) [] [] (cs ++ '\n' :: rest) = some ts := by
  have hskip : skip ((cs ++ '\n' :: rest).length + 1) (cs ++ '\n' :: rest) =
      skip (rest.length + 1) rest := by
    rw [skip_congr (Nat.le_succ _) le_rfl, skip_comment h le_rfl]
    exact skip_congr le_rfl (Nat.le_succ _)
  have hmore := run_mono hrest (show rest.length + 1 ≤ (cs ++ '\n' :: rest).length + 1 by
    simp only [List.length_append, List.length_cons]
    omega)
  rw [run_eq] at hmore ⊢
  rw [hskip]
  exact hmore

end Lexer

namespace Fragment

/-- A text begins neither with a mark nor with the name of an interpreter. -/
def BeginsPlain (cs : List Char) : Prop :=
  (∀ c ∈ cs.head?, c.toNat ≠ 0xFEFF) ∧ cs.take 2 ≠ ['#', '!']

theorem file?_of_beginsPlain {text : String} (h : BeginsPlain text.toList) :
    file? text = (Lexer.run (text.toList.length + 1) [] [] text.toList).bind fileOf? := by
  rw [file?, read?, Lexer.tokens?, String.toList_ofList]
  generalize text.toList = cs at h ⊢
  cases cs with
  | nil => rfl
  | cons c cs =>
    have hmark : dropMark (c :: cs) = c :: cs := if_neg (h.1 c rfl)
    have hplain : dropInterpreter (c :: cs) = c :: cs := by
      unfold dropInterpreter
      split
      · rename_i heq
        exact absurd (by rw [heq]; rfl) h.2
      · rfl
    rw [hmark, hplain]
    simp only [if_neg (h.1 c rfl)]
    rfl

/-- A file after comments is read as the file alone. -/
theorem file?_after_comment {heading text : String} {tree : Tree}
    (hcomment : Lexer.IsComment heading.toList) (hslash : heading.toList.head? = some '/')
    (hbegins : BeginsPlain text.toList) (h : file? text = some tree) :
    file? (heading ++ "\n\n" ++ text) = some tree := by
  rw [file?_of_beginsPlain hbegins] at h
  obtain ⟨ts, hts, hfile⟩ := Option.bind_eq_some_iff.1 h
  have hline : Lexer.run (('\n' :: text.toList).length + 1) [] [] ('\n' :: text.toList) = some ts :=
    @Lexer.run_comment [] _ _ rfl hts
  have hall := Lexer.run_comment hcomment hline
  have hchars : (heading ++ "\n\n" ++ text).toList =
      heading.toList ++ '\n' :: '\n' :: text.toList := by
    simp
  have hplain : BeginsPlain (heading ++ "\n\n" ++ text).toList := by
    obtain ⟨rest, hrest⟩ := List.head?_eq_some_iff.1 hslash
    rw [hchars, hrest]
    exact ⟨by simp, by simp⟩
  rw [file?_of_beginsPlain hplain, hchars, hall]
  exact hfile

end Fragment

namespace Layout

def Page.Extends (p q : Page) : Prop :=
  ∃ more, q.out.toList = p.out.toList ++ more

namespace Page.Extends

variable {p q r : Page}

theorem refl (p : Page) : p.Extends p :=
  ⟨[], by simp⟩

theorem trans (h : p.Extends q) (h' : q.Extends r) : p.Extends r := by
  obtain ⟨more, hmore⟩ := h
  obtain ⟨rest, hrest⟩ := h'
  exact ⟨more ++ rest, by rw [hrest, hmore, List.append_assoc]⟩

theorem flush (p : Page) : p.Extends p.flush :=
  ⟨List.replicate p.pending ' ', by simp [Page.flush]⟩

theorem write (p : Page) (s : String) : p.Extends (p.write s) := by
  refine (flush p).trans ⟨s.toList, ?_⟩
  simp [Page.write]

theorem push {c : Char} (h : p.Extends q) (hout : r.out = q.out.push c) : p.Extends r := by
  obtain ⟨more, hmore⟩ := h
  exact ⟨more ++ [c], by rw [hout, String.toList_push, hmore, List.append_assoc]⟩

theorem goOn (p : Page) (b : Break) : p.Extends (p.goOn b) := by
  unfold Page.goOn
  cases b.inLine with
  | none => exact ⟨[], by simp⟩
  | some c => exact (refl p).push rfl

theorem newLine (p : Page) (b : Break) : p.Extends (p.newLine b) := by
  unfold Page.newLine
  cases b.atEnd with
  | none =>
    dsimp only
    split
    · exact (refl p).push rfl
    · exact ((refl p).push rfl).trans (write _ _)
  | some c =>
    have hend : p.Extends { p.flush with out := p.flush.out.push c } := (flush p).push rfl
    dsimp only
    split
    · exact hend.push rfl
    · exact (hend.push rfl).trans (write _ _)

theorem put (p : Page) (b : Break) (frame : Frame) (size : Nat) :
    p.Extends (b.put frame size p) := by
  have hput : ∀ fits : Bool, p.Extends (if fits then p.goOn b else p.newLine b) := by
    intro fits
    cases fits with
    | false => exact newLine p b
    | true => exact goOn p b
  exact hput _

end Page.Extends

mutual

theorem Doc.extends_put (frame : Frame) (beyond : Nat) :
    ∀ (d : Doc) (p : Page), p.Extends (d.put frame beyond p)
  | .text s, p => .write p s
  | .brk b, p => .put p b frame _
  | .overflow, p => .refl p
  | .box offset consistent kids, p => by
    rw [Doc.put]
    split
    · obtain ⟨more, hmore⟩ := extends_putAll (if consistent then .consistent else .inconsistent)
        beyond kids { p with indent := p.indent + offset }
      exact ⟨more, hmore⟩
    · exact extends_putAll .fits beyond kids p

theorem extends_putAll (frame : Frame) (beyond : Nat) :
    ∀ (ds : List Doc) (p : Page), p.Extends (putAll frame beyond ds p)
  | [], p => .refl p
  | d :: ds, p => by
    rw [putAll]
    exact (Doc.extends_put frame (toBreak beyond ds) d p).trans (extends_putAll frame beyond ds _)

end

theorem putAll_words (frame : Frame) (beyond : Nat) (a b : String) (ds : List Doc) (p : Page)
    (hp : p.pending = 0) :
    ∃ more, (putAll frame beyond (.text a :: .text b :: ds) p).out.toList =
      p.out.toList ++ a.toList ++ b.toList ++ more := by
  obtain ⟨more, hmore⟩ := extends_putAll frame beyond ds ((p.write a).write b)
  refine ⟨more, ?_⟩
  have hout : ((p.write a).write b).out.toList = p.out.toList ++ a.toList ++ b.toList := by
    simp [Page.write, Page.flush, hp]
  rw [putAll, putAll, Doc.put, Doc.put, hmore, hout]

theorem render_cbox_words (a b : String) (ds : List Doc) :
    ∃ more, (render (cbox 0 (.text a :: .text b :: ds))).toList = a.toList ++ b.toList ++ more := by
  obtain ⟨kids, hkids⟩ : ∃ kids, cbox 0 (.text a :: .text b :: ds) =
      [.box 0 true (.text a :: .text b :: kids)] := by
    cases ds with
    | nil => exact ⟨[], rfl⟩
    | cons d ds => exact ⟨dropIfMore (d :: ds), rfl⟩
  rw [hkids, render, putAll, putAll, Doc.put]
  split
  · obtain ⟨more, hmore⟩ := putAll_words .consistent (toBreak 0 []) a b kids
      { Page.blank with indent := Page.blank.indent + 0 } rfl
    exact ⟨more, by simpa [Page.blank] using hmore⟩
  · obtain ⟨more, hmore⟩ := putAll_words .fits (toBreak 0 []) a b kids Page.blank rfl
    exact ⟨more, by simpa [Page.blank] using hmore⟩

end Layout

namespace Grammar.MarkedFn

open Layout

theorem draw_marker (m : String) :
    ∃ more, (sketch (.list [markerTree m])).plain = .text "#" :: .text "[" :: more :=
  ⟨_, rfl⟩

theorem drawNode_fnItem (attrs visibility default sig block : Sketch) (place : Place) :
    drawNode .fnItem [attrs, visibility, default, sig, block] place =
      attrs.plain ++ braced (visibility.plain ++ flag default ++ sig.plain ++
        signatureWhere sig false ++ bodyLines block) := by
  have hexpr : isExprKind .fnItem = false := by decide +kernel
  have htype : isTypeKind .fnItem = false := by decide +kernel
  unfold drawNode
  simp only [hexpr, htype, isStmtKind]
  rfl

theorem draw_itemTree (f : MarkedFn) (attrs : List Tree) (block : Tree) (place : Place) :
    ∃ more, (sketch (f.itemTree attrs block)).draw place = (sketch (.list attrs)).plain ++ more := by
  rw [itemTree, sketch]
  exact ⟨_, drawNode_fnItem _ _ _ _ _ place⟩

theorem draw_item {f : MarkedFn} {t : Tree} (h : f.IsItem t) (place : Place) :
    ∃ more, (sketch t).draw place = .text "#" :: .text "[" :: more := by
  obtain ⟨inner, stmts, rfl⟩ := h
  obtain ⟨more, hdraw⟩ := draw_itemTree f [markerTree f.marker] (blockTree inner stmts) place
  obtain ⟨head, hhead⟩ := draw_marker f.marker
  exact ⟨head ++ more, by rw [hdraw, hhead]; rfl⟩

theorem plain_file (items : List Tree) :
    (sketch (.node .file [.list [], .list items])).plain =
      cbox 0 (eachLast (fun _ (s : Sketch) => s.draw (.line false)) (sketches items)) := by
  rw [sketch]
  rfl

theorem eachLast_cons {α : Type} (f : Bool → α → List Doc) (a : α) (as : List α) :
    eachLast f (a :: as) = f as.isEmpty a ++ eachLast f as := by
  cases as <;> simp [eachLast]

/-- The text of a file of marked functions is empty or begins with a marker. -/
theorem layout_begins {fs : List MarkedFn} {items : List Tree} {text : String}
    (h : List.Forall₂ IsItem fs items)
    (htext : layout? (.node .file [.list [], .list items]) = some text) :
    text.toList = [] ∨ ∃ more, text.toList = '#' :: '[' :: more := by
  unfold layout? at htext
  split at htext
  · cases htext
  · obtain rfl := Option.some.inj htext
    rw [plain_file]
    cases h with
    | nil => exact .inl rfl
    | cons hitem _ =>
      obtain ⟨more, hdraw⟩ := draw_item hitem (.line false)
      rw [sketches, eachLast_cons, hdraw]
      obtain ⟨rest, hrest⟩ := render_cbox_words "#" "[" _
      exact .inr ⟨rest, by simpa using hrest⟩

theorem beginsPlain_layout {fs : List MarkedFn} {items : List Tree} {text : String}
    (h : List.Forall₂ IsItem fs items)
    (htext : layout? (.node .file [.list [], .list items]) = some text) :
    Fragment.BeginsPlain text.toList := by
  obtain hnil | ⟨more, hmore⟩ := layout_begins h htext
  · rw [hnil]
    exact ⟨by simp, by simp⟩
  · rw [hmore]
    exact ⟨by simp, by simp⟩

end Grammar.MarkedFn

/-- What is relied on of reading and printing, at one stream of tokens. -/
structure Reproduced (ts : List Token) : Prop where
  /-- The tree of a file stands for the tokens it was read from. -/
  tokens : ∀ tree, Fragment.fileOf? ts = some tree → tree.tokens = ts
  /-- Reading the text of the tree gives the tree. -/
  text : ∀ tree text, Fragment.fileOf? ts = some tree → layout? tree = some text →
    (Fragment.file? text).map Tree.unpair = some tree.unpair

theorem Reproduced.of_tokens {ts : List Token} {text : String}
    (htokens : (Fragment.fileOf? ts).map Tree.tokens = some ts)
    (htext : (Fragment.fileOf? ts).bind layout? = some text)
    (hplain : Fragment.BeginsPlain text.toList)
    (hlexed : Lexer.run (text.toList.length + 1) [] [] text.toList = some ts) : Reproduced ts where
  tokens := by
    intro tree htree
    rw [htree] at htokens
    exact Option.some.inj htokens
  text := by
    intro tree text' htree htext'
    rw [htree] at htext
    obtain rfl : text' = text := Option.some.inj (htext'.symm.trans htext)
    rw [Fragment.file?_of_beginsPlain hplain, hlexed, Option.bind_some, htree]
    rfl

/-- Marked functions are found again in their text, with a heading in front of it. -/
theorem Reproduced.shows {fs : List Grammar.MarkedFn} (hfs : ∀ f ∈ fs, f.Named)
    (h : Reproduced (fs.flatMap Grammar.MarkedFn.tokens)) {tree : Tree} {text heading : String}
    (htree : Fragment.fileOf? (fs.flatMap Grammar.MarkedFn.tokens) = some tree)
    (htext : layout? tree = some text) (hcomment : Lexer.IsComment heading.toList)
    (hslash : heading.toList.head? = some '/') :
    ∃ items,
      Fragment.file? (heading ++ "\n\n" ++ text) = some (.node .file [.list [], .list items]) ∧
      List.Forall₂ Grammar.MarkedFn.Shows fs items := by
  obtain ⟨items, rfl, hitems⟩ := Grammar.MarkedFn.fileOf?_items hfs htree
  have htokens : Tree.tokensOf items = fs.flatMap Grammar.MarkedFn.tokens := by
    simpa [Tree.tokens, Tree.tokensOf] using h.tokens _ htree
  have hshows := Grammar.MarkedFn.shows_of_tokens hitems htokens
  obtain ⟨tree', hfile, hunpair⟩ := Option.map_eq_some_iff.1 (h.text _ text htree htext)
  obtain ⟨items', rfl, hitems'⟩ := Grammar.MarkedFn.shows_of_unpair_file hshows hunpair
  exact ⟨items', Fragment.file?_after_comment hcomment hslash
    (Grammar.MarkedFn.beginsPlain_layout hitems htext) hfile, hitems'⟩

end Statechart.Target
