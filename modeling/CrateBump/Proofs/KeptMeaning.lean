/-
# What a rewritten manifest means

A manifest is read in two ways: as lines, when its version is found and replaced, and as a TOML
document, when its labels are given.  A value that spans several lines can hold lines that look like
a header or like the declaration of a version, so the two readings need not agree.  They do where the
lines in front of the header, and those in front of the declaring line, are documents of their own,
the quoted version ends for both at the same quote, and no key of the labels is spelled in two ways
(`ReadAlike`).

Main statement: there a manifest stays a document under a new version, which is then the version of
its package and the only thing of the package that changes.
-/
import CrateBump.Proofs.BumpedVersion
import CrateBump.Proofs.PackageLabels
import CrateBump.Proofs.TomlEncoding

namespace CrateBump

namespace Toml

/-! ## The two lines that are found -/

/-- Blanks in front of something are a gap. -/
theorem skipAllGaps_blanks {a : Text} (ha : AllBlank a) {b : UInt8} (t : Text)
    (hb : Text.isBlank b = false) (hcomment : b ≠ 35) (hfeed : b ≠ 10) (hreturn : b ≠ 13) :
    skipAllGaps (a ++ b :: t) = b :: t := by
  have hskip : Text.skipBlanks (a ++ b :: t) = b :: t := ha.skipBlanks_append hb t
  have hnewline : newline? (b :: t) = none := by
    rw [Option.eq_none_iff_forall_ne_some]
    intro s hs
    rcases newline?_eq_some_iff.1 hs with hcons | hcons
    · exact hfeed (List.cons.inj hcons).1
    · exact hreturn (List.cons.inj hcons).1
  have htoken : Gaps (a ++ b :: t) (Text.skipBlanks (a ++ b :: t)) := by
    apply Gaps.token <;> rw [hskip]
    · exact fun rest hrest => hcomment (List.cons.inj hrest).1
    · exact hnewline
  rw [hskip] at htoken
  exact skipAllGaps_eq_iff.2 htoken

theorem statement?_packageHeader (d : Dialect) (rest : Text) :
    statement? d (packageWord ++ rest)
      = (endOfLine? rest).map fun u => (.header false [ascii "package"], u) := by
  have hpart : statementPart? d (packageWord ++ rest)
      = some (.header false [ascii "package"], rest) := rfl
  rw [statement?, hpart, Option.bind_some]

theorem key?_version (d : Dialect) {a : Text} (ha : AllBlank a) (t : Text) :
    key? d (versionWord ++ (a ++ 61 :: t)) = some ([versionWord], 61 :: t) := by
  have hstop : ∃ c u, a ++ 61 :: t = c :: u ∧ isBareByte c = false := by
    cases a with
    | nil => exact ⟨61, t, rfl, by decide⟩
    | cons c a =>
      refine ⟨c, a ++ 61 :: t, rfl, ?_⟩
      have hblank := ha c List.mem_cons_self
      simp only [Text.isBlank, Bool.or_eq_true, beq_iff_eq] at hblank
      rcases hblank with rfl | rfl <;> decide
  have hbare : ∀ b ∈ versionWord, isBareByte b = true := List.all_eq_true.1 (by decide)
  have hpart : keyPart? d (versionWord ++ (a ++ 61 :: t)) = some (versionWord, a ++ 61 :: t) := by
    obtain ⟨c, u, hcons, hc⟩ := hstop
    have hword : versionWord = 118 :: ascii "ersion" := by decide
    rw [keyPart?_bare d (by rw [hword]; simp) (by rw [hword]; simp), hcons,
      List.takeWhile_append_of_pos hbare, List.dropWhile_append_of_pos hbare,
      List.takeWhile_cons_of_neg (by simp [hc]), List.dropWhile_cons_of_neg (by simp [hc]),
      List.append_nil]
    rfl
  have hskip : Text.skipBlanks (versionWord ++ (a ++ 61 :: t)) = versionWord ++ (a ++ 61 :: t) := rfl
  have hend : Text.skipBlanks (a ++ 61 :: t) = 61 :: t := ha.skipBlanks_append (by decide) t
  rw [key?, keyParts_succ, hskip, hpart, Option.bind_some, hend, behindPart, onByte_of_ne]
  simp

/-- The line that declares a version is read as its assignment, if the quoted value is read up to the
closing quote. -/
theorem statement?_version (d : Dialect) {a c v x u : Text} (ha : AllBlank a) (hc : AllBlank c)
    (hvalue : string? d (doubleQuote :: (v ++ doubleQuote :: x)) = some (u, x)) :
    statement? d (versionWord ++ (a ++ 61 :: (c ++ doubleQuote :: (v ++ doubleQuote :: x))))
      = (endOfLine? x).map fun s => (.pair [versionWord] (.text u), s) := by
  have hskip : Text.skipBlanks (c ++ doubleQuote :: (v ++ doubleQuote :: x))
      = doubleQuote :: (v ++ doubleQuote :: x) := hc.skipBlanks_append (by decide) _
  have hread : ∀ n, value? d (n + 1) (doubleQuote :: (v ++ doubleQuote :: x))
      = some (.text u, x) := by
    intro n
    show (string? d (doubleQuote :: (v ++ doubleQuote :: x))).map _ = _
    rw [hvalue, Option.map_some]
  have hpart : pairPart? d (versionWord ++ (a ++ 61 :: (c ++ doubleQuote :: (v ++ doubleQuote :: x))))
      = some (.pair [versionWord] (.text u), x) := by
    rw [pairPart?, key?_version d ha, Option.bind_some, onByte_cons, hskip, hread, Option.map_some]
  rw [statement?, statementPart?, onByte_of_ne, hpart, Option.bind_some]
  intro u hu
  cases hu

/-! ## Quoted versions -/

section Quoted

variable {d : Dialect} {n : Nat} {v w x u s : Text}

theorem basicBody_plain (hw : ∀ b ∈ w, isPlain b = true) (hn : w.length < n) :
    basicBody d n (w ++ doubleQuote :: x) = some (w, x) := by
  induction w generalizing n with
  | nil =>
    obtain ⟨n, rfl⟩ : ∃ k, n = k + 1 := ⟨n - 1, by omega⟩
    rfl
  | cons b w ih =>
    obtain ⟨n, rfl⟩ : ∃ k, n = k + 1 := ⟨n - 1, by omega⟩
    have hplain := hw b List.mem_cons_self
    simp only [isPlain, Bool.and_eq_true, decide_eq_true_eq, bne_iff_ne] at hplain
    obtain ⟨⟨⟨hlow, -⟩, hquote⟩, hbackslash⟩ := hplain
    have hline : ¬ (b = 10 ∨ b = 13) := by
      rintro (rfl | rfl) <;> revert hlow <;> decide
    have htail := ih (fun c hc => hw c (List.mem_cons_of_mem _ hc)) (by simpa using hn)
    rw [List.cons_append, basicBody, if_neg hquote, if_neg hline, if_neg hbackslash, htail]
    rfl

/-- A plain text between quotes is read as it stands. -/
theorem string?_plain (hw : ∀ b ∈ w, isPlain b = true) (hx : ∀ u, x ≠ doubleQuote :: u) :
    string? d (doubleQuote :: (w ++ doubleQuote :: x)) = some (w, x) := by
  have hone : ∀ u, w ++ doubleQuote :: x ≠ 34 :: 34 :: u := by
    intro u heq
    cases w with
    | nil => exact hx u (List.cons.inj heq).2
    | cons b w =>
      obtain rfl : b = 34 := (List.cons.inj heq).1
      exact absurd (hw 34 List.mem_cons_self) (by decide)
  have hfuel : w.length < (w ++ doubleQuote :: x).length + 1 := by
    rw [List.length_append]
    omega
  rw [string?_basic d hone]
  exact basicBody_plain hw hfuel

/-- A quoted text without escapes stands for itself. -/
theorem basicBody_eq_self (hquote : doubleQuote ∉ v) (hbackslash : 92 ∉ v)
    (h : basicBody d n (v ++ doubleQuote :: x) = some (u, s)) : u = v := by
  induction v generalizing n u s with
  | nil =>
    cases n with
    | zero => cases h
    | succ n => exact (Prod.mk.inj (Option.some.inj h)).1.symm
  | cons b v ih =>
    cases n with
    | zero => cases h
    | succ n =>
      rw [List.mem_cons, not_or] at hquote hbackslash
      rw [List.cons_append, basicBody, if_neg (Ne.symm hquote.1)] at h
      split at h
      · cases h
      rw [if_neg (Ne.symm hbackslash.1)] at h
      obtain ⟨⟨u', s'⟩, hu, heq⟩ := Option.map_eq_some_iff.1 h
      rw [← (Prod.mk.inj heq).1, ih hquote.2 hbackslash.2 hu]

/-- A quoted version that is read up to the quote where the search ends it stands for itself, if it
has no escapes. -/
theorem string?_eq_self (hquote : doubleQuote ∉ v) (hbackslash : 92 ∉ v)
    (h : string? d (doubleQuote :: (v ++ doubleQuote :: x)) = some (u, x)) : u = v := by
  by_cases hone : ∀ t, v ++ doubleQuote :: x ≠ 34 :: 34 :: t
  · rw [string?_basic d hone] at h
    exact basicBody_eq_self hquote hbackslash h
  · -- a string over several lines cannot end before its third quote
    rw [not_forall] at hone
    obtain ⟨t, ht⟩ := hone
    rw [Decidable.not_not] at ht
    cases v with
    | cons b v => exact absurd (List.mem_cons.2 (Or.inl (List.cons.inj ht).1.symm)) hquote
    | nil =>
      obtain rfl : x = 34 :: t := (List.cons.inj ht).2
      have hbody : multiBasicBody d (t.length + 1) (dropNewline t) = some (u, 34 :: t) := h
      have hsuffix := (multiBasicBody_continues d (Nat.le_refl _) _ hbody).1
      have hlength := (hsuffix.trans (dropNewline_suffix t)).length_le
      rw [List.length_cons] at hlength
      omega

end Quoted

/-! ## Lines of a section -/

section Section

variable {d : Dialect} {fresh : Bool} {s t r : Text} {draft last : Draft}

theorem skips_behind {p : Text} (h : Skips tableLine? fresh (p ++ lineFeed :: t) r) :
    Skips tableLine? true t r := (skips_append.1 h).2.2

/-- The byte in front of which a gap ends starts no header, if no line does. -/
theorem Gaps.head?_ne_bracket (h : Gaps t s) (hskips : Skips tableLine? fresh t r)
    (hfresh : fresh = true ∨ t = [] ∨ ∃ u, t = lineFeed :: u) : s.head? ≠ some 91 := by
  induction h generalizing fresh with
  | @comment t rest s h _ ih =>
    obtain ⟨p, hp⟩ := skipBlanks_suffix t
    obtain ⟨q, hq⟩ := toLineEnd_suffix rest
    have ht : t = (p ++ 35 :: q) ++ toLineEnd rest := by
      rw [List.append_assoc, List.cons_append, hq, ← h, hp]
    rw [ht] at hskips
    exact ih (skips_append.1 hskips).2 (Or.inr (toLineEnd_eq rest))
  | @newline t rest s h _ ih =>
    obtain ⟨p, hp⟩ := skipBlanks_suffix t
    obtain ⟨q, hq⟩ : ∃ q, t = q ++ lineFeed :: rest := by
      rcases newline?_eq_some_iff.1 h with hcons | hcons
      · exact ⟨p, by rw [← hcons, hp]⟩
      · exact ⟨p ++ [13], by rw [← hp, hcons, List.append_assoc]; rfl⟩
    rw [hq] at hskips
    exact ih (skips_behind hskips) (Or.inl rfl)
  | @token t _ hnewline =>
    intro hhead
    obtain ⟨u, hu⟩ := List.head?_eq_some_iff.1 hhead
    rcases hfresh with rfl | rfl | ⟨v, rfl⟩
    · have ht : leadBlanks t ++ 91 :: u = t := by
        rw [← hu]
        exact leadBlanks_append_skipBlanks t
      have hline : tableLine? (t ++ r) ≠ none :=
        tableLine?_ne_none_iff.2 ⟨leadBlanks t, u ++ r, allBlank_leadBlanks t, by
          rw [← List.cons_append, ← List.append_assoc, ht]⟩
      cases t with
      | nil => cases hu
      | cons b t => exact hline (hskips.1 rfl)
    · cases hu
    · cases hnewline

/-- What starts with no bracket is an assignment. -/
theorem statement?_pair {x : Statement} (h : t.head? ≠ some 91) (hx : statement? d t = some (x, s)) :
    ∃ key v, x = .pair key v := by
  have hne : ∀ u, t ≠ 91 :: u := by
    rintro u rfl
    exact h rfl
  rw [statement?, statementPart?, onByte_of_ne _ _ hne] at hx
  obtain ⟨⟨y, u⟩, hpart, hx⟩ := Option.bind_eq_some_iff.1 hx
  obtain ⟨_, _, heq⟩ := Option.map_eq_some_iff.1 hx
  obtain ⟨rfl, -⟩ := Prod.mk.inj heq
  obtain ⟨⟨key, rest⟩, _, hpart⟩ := Option.bind_eq_some_iff.1 hpart
  unfold onByte at hpart
  split at hpart
  · obtain ⟨q, _, hq⟩ := Option.map_eq_some_iff.1 hpart
    exact ⟨key, q.1, (Prod.mk.inj hq).1.symm⟩
  · cases hpart

/-- **A table stays open as long as no line starts a header.** -/
theorem Run.inTable {key : Text} (h : Run d draft t last) (hopen : draft.InTable key)
    (hskips : Skips tableLine? true t r) : last.InTable key := by
  induction h with
  | done _ => exact hopen
  | @line draft next last t s x hne hx hnext _ ih =>
    have hgaps : Gaps t (skipAllGaps t) := skipAllGaps_eq_iff.1 rfl
    obtain ⟨ks, v, rfl⟩ := statement?_pair (hgaps.head?_ne_bracket hskips (Or.inl rfl)) hx
    apply ih (hopen.follow_pair hnext)
    obtain ⟨p, hp⟩ := hgaps.suffix
    rcases statement?_ends hx with rfl | ⟨q, hq⟩
    · trivial
    · rw [← hp, hq, ← List.append_assoc] at hskips
      exact skips_behind hskips

end Section

/-! ## Reading a declaration -/

/-- A document in which nothing was read. -/
def Draft.start : Draft := ⟨[], [], 0⟩

theorem ends_of_freshAfter {t : Text} (h : freshAfter true t = true) : t = [] ∨ EndsLine t := by
  cases t with
  | nil => exact Or.inl rfl
  | cons b t =>
    obtain ⟨line, hline⟩ := exists_eq_append_lineFeed h
    exact Or.inr (by rw [hline, EndsLine, List.getLast?_concat])

section Declared

variable {d : Dialect} {decl : Declaration} (hd : decl.WellFormed)
include hd

/-- The mark of the byte order is looked for in the lines before the header. -/
theorem skipMark_preamble (r : Text) :
    skipMark (decl.preamble ++ (decl.header ++ r)) = skipMark decl.preamble ++ (decl.header ++ r)
      ∧ (skipMark decl.preamble = [] ∨ EndsLine (skipMark decl.preamble)) := by
  rcases ends_of_freshAfter hd.preamble_fresh with hnil | hends
  · rw [hnil]
    refine ⟨?_, Or.inl rfl⟩
    obtain ⟨a, ha, hheader⟩ := hd.header_form
    obtain ⟨b, t, hcons, hb⟩ : ∃ b t, decl.header = b :: t ∧ b < 0x80 := by
      cases a with
      | nil => exact ⟨91, ascii "package]", hheader, by decide⟩
      | cons b a =>
        refine ⟨b, a ++ packageWord, hheader, ?_⟩
        have hblank := ha b List.mem_cons_self
        simp only [Text.isBlank, Bool.or_eq_true, beq_iff_eq] at hblank
        rcases hblank with rfl | rfl <;> decide
    rw [hcons]
    exact skipMark_cons_ascii hb (t ++ r)
  · obtain ⟨happend, hmark⟩ := skipMark_append hends (decl.header ++ r)
    exact ⟨happend, Or.inr hmark⟩

/-- Behind the lines before it the header opens the package table. -/
theorem readAll_header {above : Draft} (h : Run d Draft.start (skipMark decl.preamble) above)
    (r : Text) :
    Draft.start.readAll d (skipMark (decl.preamble ++ (decl.header ++ r)))
      = (endOfLine? r).bind fun u =>
        (above.follow d (.header false [ascii "package"])).bind fun next => next.readAll d u := by
  obtain ⟨hmark, hends⟩ := skipMark_preamble hd r
  obtain ⟨a, ha, hheader⟩ := hd.header_form
  have hgaps : skipAllGaps (decl.header ++ r) = packageWord ++ r := by
    rw [hheader, List.append_assoc]
    exact skipAllGaps_blanks ha _ (by decide) (by decide) (by decide) (by decide)
  have hne : packageWord ++ r ≠ [] := List.cons_ne_nil (91 : UInt8) _
  rw [hmark, h.readAll_append hends, Draft.readAll_eq, hgaps, if_neg hne, statement?_packageHeader]
  cases endOfLine? r <;> rfl

/-- In a document the header has a line of its own. -/
theorem endsLine_skipped {above last : Draft}
    (h : Run d Draft.start (skipMark decl.preamble) above)
    (hlast : Draft.start.readAll d (skipMark decl.text) = some last) : EndsLine decl.skipped := by
  rcases ends_of_freshAfter hd.skipped_fresh with hnil | hends
  · rw [Declaration.text, readAll_header hd h] at hlast
    obtain ⟨u, hu, -⟩ := Option.bind_eq_some_iff.1 hlast
    obtain ⟨a, b, c, ha, -, -, hlead⟩ := hd.lead_form
    -- the declaring line would have to be the end of the header's line
    have hskip : Text.skipBlanks (decl.inside ++ decl.beyond)
        = 118 :: (ascii "ersion" ++ (b ++ [61] ++ c ++ [doubleQuote] ++ decl.version ++ decl.tail
          ++ decl.beyond)) := by
      have hword : versionWord = 118 :: ascii "ersion" := by decide
      rw [Declaration.inside, Declaration.assignment, hnil, hlead, hword]
      simp only [List.nil_append, List.append_assoc, List.cons_append]
      exact ha.skipBlanks_append (by decide) _
    rw [endOfLine?, hskip] at hu
    cases hu
  · exact hends

/-- **Where the lines above are documents, the declaring line is read with the package table
open.** -/
theorem exists_draft_at_line {above here : Draft}
    (habove : Run d Draft.start (skipMark decl.preamble) above) (hends : EndsLine decl.skipped)
    (hhere : Draft.start.readAll d (skipMark (decl.preamble ++ (decl.header ++ decl.skipped)))
      = some here) :
    here.InTable (ascii "package")
      ∧ ∀ r, Draft.start.readAll d (skipMark (decl.preamble ++ (decl.header ++ (decl.skipped ++ r))))
        = here.readAll d r := by
  rw [readAll_header hd habove] at hhere
  obtain ⟨u, hu, hhere⟩ := Option.bind_eq_some_iff.1 hhere
  obtain ⟨opened, hopened, hhere⟩ := Option.bind_eq_some_iff.1 hhere
  have hrun := run_of_readAll hhere
  have hline := endOfLine?_eq_some hu
  refine ⟨hrun.inTable (Draft.inTable_of_header hopened) ?_ (r := decl.assignment ++ decl.beyond),
    fun r => ?_⟩
  · have hskips := (skips_append.1 hd.inside_skips).1
    rcases hline with rfl | ⟨p, hp⟩
    · trivial
    · rw [hp] at hskips
      exact skips_behind hskips
  · have huEnds : u = [] ∨ EndsLine u := by
      by_cases hnil : u = []
      · exact Or.inl hnil
      · exact Or.inr (hends.of_suffix (endOfLine?_suffix hu) hnil)
    rw [readAll_header hd habove, endOfLine?_append hends hu, Option.bind_some, hopened,
      Option.bind_some, hrun.readAll_append huEnds]

end Declared

/-- The declaring line gives the version to the open table. -/
theorem readAll_version {d : Dialect} {here : Draft} {lead v x u : Text} (hlead : IsVersionLead lead)
    (hvalue : string? d (doubleQuote :: (v ++ doubleQuote :: x)) = some (u, x)) :
    here.readAll d (lead ++ v ++ doubleQuote :: x)
      = (endOfLine? x).bind fun s => (here.follow d (.pair [versionWord] (.text u))).bind fun next =>
        next.readAll d s := by
  obtain ⟨a, b, c, ha, hb, hc, rfl⟩ := hlead
  have hgaps : skipAllGaps (a ++ versionWord ++ b ++ [61] ++ c ++ [doubleQuote] ++ v
      ++ doubleQuote :: x)
      = versionWord ++ (b ++ 61 :: (c ++ doubleQuote :: (v ++ doubleQuote :: x))) := by
    simp only [List.append_assoc, List.cons_append, List.nil_append]
    exact skipAllGaps_blanks ha _ (by decide) (by decide) (by decide) (by decide)
  have hne : versionWord ++ (b ++ 61 :: (c ++ doubleQuote :: (v ++ doubleQuote :: x))) ≠ [] :=
    List.cons_ne_nil (118 : UInt8) _
  rw [Draft.readAll_eq, hgaps, if_neg hne, statement?_version d hb hc hvalue]
  cases endOfLine? x <;> rfl

end Toml

/-! ## Two readings that agree -/

namespace PackageInfo

open CrateBump.Toml

/-- A document is read line by line behind the mark of the byte order. -/
theorem parse?_eq (t : Text) : parse? dialect t
    = if isReadable (skipMark t) = true then
        (Draft.start.readAll dialect (skipMark t)).map fun last => .table (valuesOf last.entries)
      else none := rfl

theorem exists_run_of_parse? {t : Text} (h : (parse? dialect t).isSome) :
    ∃ last, Run dialect Draft.start (skipMark t) last := by
  rw [parse?_eq] at h
  split at h
  · rw [Option.isSome_map, Option.isSome_iff_exists] at h
    obtain ⟨last, hlast⟩ := h
    exact ⟨last, run_of_readAll hlast⟩
  · cases h

/-- Documents are read off finished tables. -/
theorem parse?_eq_some_iff {t : Text} {document : Value} :
    parse? dialect t = some document
      ↔ isReadable (skipMark t) = true
        ∧ ∃ last, Draft.start.readAll dialect (skipMark t) = some last
          ∧ document = .table (valuesOf last.entries) := by
  rw [parse?_eq]
  by_cases hok : isReadable (skipMark t) = true
  · rw [if_pos hok, Option.map_eq_some_iff]
    simp only [hok, true_and, eq_comm]
  · rw [if_neg hok]
    simp [hok]

/-- Labels are read off the tables of a document. -/
theorem ofManifest?_eq_some_iff {order : KeyOrder} {t : Text} {info : PackageInfo} :
    ofManifest? order t = some info
      ↔ isReadable (skipMark t) = true
        ∧ ∃ last, Draft.start.readAll dialect (skipMark t) = some last
          ∧ labels? order last.entries = some info := by
  rw [ofManifest?, Option.bind_eq_some_iff]
  constructor
  · rintro ⟨document, hdocument, hlabels⟩
    obtain ⟨hok, last, hlast, rfl⟩ := parse?_eq_some_iff.1 hdocument
    exact ⟨hok, last, hlast, hlabels⟩
  · rintro ⟨hok, last, hlast, hlabels⟩
    exact ⟨_, parse?_eq_some_iff.2 ⟨hok, last, hlast, rfl⟩, hlabels⟩

/-- A version given to the open package table is the one that the finished document has, whichever it
is; the name does not depend on it. -/
theorem labels?_of_version {d : Dialect} {here last : Draft} {s u : Text} {info : PackageInfo}
    (hopen : here.InTable (ascii "package"))
    (hlast : ((here.follow d (.pair [versionWord] (.text u))).bind fun next => next.readAll d s)
      = some last)
    (hone : OneSpelling (.table (valuesOf last.entries)))
    (hlabels : labels? .written last.entries = some info) :
    (∀ w, ∃ lastW,
      ((here.follow d (.pair [versionWord] (.text w))).bind fun next => next.readAll d s)
          = some lastW
        ∧ ∀ order, labels? order lastW.entries = some { info with version := w })
      ∧ info.version = u := by
  obtain ⟨next, hnext, hread⟩ := Option.bind_eq_some_iff.1 hlast
  rcases hopen.follow_text hnext with hleads | ⟨hleads, hfollow⟩
  · -- the package has a table for its version, so it has no labels
    rw [labels?_eq_none hone (Draft.leadsIn_of_readAll hleads hread)] at hlabels
    cases hlabels
  have hany : ∀ w, ∃ lastW,
      ((here.follow d (.pair [versionWord] (.text w))).bind fun next => next.readAll d s)
          = some lastW
        ∧ ∀ order, labels? order lastW.entries = some { info with version := w } := by
    intro w
    refine ⟨last.put (.text w) (ascii "package") [versionWord], ?_, ?_⟩
    · rw [hfollow, Option.bind_some, (Draft.readAll_put s hleads).eq_map, hread, Option.map_some]
    · exact labels?_putIn hone (Draft.leadsIn_of_readAll hleads hread) hlabels w
  refine ⟨hany, ?_⟩
  -- putting in what the document says changes nothing
  obtain ⟨lastU, hlastU, hlabelsU⟩ := hany u
  obtain rfl : last = lastU := Option.some.inj (hlast.symm.trans hlastU)
  exact congrArg PackageInfo.version (Option.some.inj (hlabels.symm.trans (hlabelsU .written)))

section Declared

variable {decl : Declaration} (hd : decl.WellFormed) {info : PackageInfo} {u w : Text}
include hd

theorem isReadable_withVersion (hw : ∀ b ∈ w, isPlain b = true)
    (h : isReadable (skipMark decl.text) = true) :
    isReadable (skipMark (decl.withVersion w).text) = true := by
  obtain ⟨a, b, c, -, -, -, hlead⟩ := hd.lead_form
  obtain ⟨rest, htail⟩ := hd.tail_form
  let before := skipMark decl.preamble ++ decl.header ++ decl.skipped
    ++ (a ++ versionWord ++ b ++ [61] ++ c)
  have htext : ∀ v, skipMark (decl.withVersion v).text
      = before ++ doubleQuote :: (v ++ doubleQuote :: (rest ++ decl.beyond)) := by
    intro v
    have hmark := (skipMark_preamble hd ((decl.withVersion v).inside ++ decl.beyond)).1
    refine hmark.trans ?_
    simp only [Declaration.inside, Declaration.assignment, Declaration.withVersion, hlead, htail,
      before, List.append_assoc, List.cons_append, List.nil_append]
  rw [htext]
  have hold : skipMark decl.text = _ := htext decl.version
  rw [hold] at h
  exact isReadable_between hw h

/-- **A version that is put in is the version of the document, and nothing else of the package
changes**, if both readings meet at the header and at the declaring line. -/
theorem ofManifest?_withVersion {order : KeyOrder} (hdecodes : ofManifest? order decl.text = some info)
    (hone : ∀ document ∈ parse? dialect decl.text, OneSpelling document)
    (habove : (parse? dialect decl.preamble).isSome)
    (hlines : EndsLine decl.skipped →
      (parse? dialect (decl.preamble ++ (decl.header ++ decl.skipped))).isSome)
    (hvalue : string? dialect (doubleQuote :: (decl.version ++ (decl.tail ++ decl.beyond)))
      = some (u, (decl.tail ++ decl.beyond).tail))
    (hw : ∀ b ∈ w, isPlain b = true) :
    (∀ order', ofManifest? order' (decl.withVersion w).text = some { info with version := w })
      ∧ info.version = u := by
  obtain ⟨rest, htail⟩ := hd.tail_form
  obtain ⟨hok, last, hlast, hlabels⟩ := ofManifest?_eq_some_iff.1 hdecodes
  have hspelled : OneSpelling (.table (valuesOf last.entries)) :=
    hone _ (parse?_eq_some_iff.2 ⟨hok, last, hlast, rfl⟩)
  rw [labels?, ofDocument?_eq_written order hspelled, ← labels?] at hlabels
  obtain ⟨above, hrun⟩ := exists_run_of_parse? habove
  have hends := endsLine_skipped hd hrun hlast
  obtain ⟨here, hhere⟩ := exists_run_of_parse? (hlines hends)
  obtain ⟨hopen, hreads⟩ := exists_draft_at_line hd hrun hends hhere.readAll
  -- both versions are read from the same draft
  have htext : ∀ v, Draft.start.readAll dialect (skipMark (decl.withVersion v).text)
      = here.readAll dialect (decl.lead ++ v ++ doubleQuote :: (rest ++ decl.beyond)) := by
    intro v
    rw [← hreads]
    simp only [Declaration.text, Declaration.inside, Declaration.assignment, Declaration.withVersion,
      htail, List.append_assoc, List.cons_append]
  have hold : Draft.start.readAll dialect (skipMark decl.text) = _ := htext decl.version
  have hquoted : string? dialect (doubleQuote :: (decl.version ++ doubleQuote :: (rest ++ decl.beyond)))
      = some (u, rest ++ decl.beyond) := by
    rw [htail] at hvalue
    exact hvalue
  rw [hold, readAll_version hd.lead_form hquoted] at hlast
  obtain ⟨s, hs, hlast⟩ := Option.bind_eq_some_iff.1 hlast
  obtain ⟨hany, hversion⟩ := labels?_of_version hopen hlast hspelled hlabels
  refine ⟨?_, hversion⟩
  have hplain : string? dialect (doubleQuote :: (w ++ doubleQuote :: (rest ++ decl.beyond)))
      = some (w, rest ++ decl.beyond) := by
    apply string?_plain hw
    intro t ht
    -- behind a quote the line would not end
    rw [ht] at hs
    cases hs
  obtain ⟨lastW, hlastW, hlabelsW⟩ := hany w
  refine fun order' =>
    ofManifest?_eq_some_iff.2 ⟨isReadable_withVersion hd hw hok, lastW, ?_, hlabelsW order'⟩
  rw [htext, readAll_version hd.lead_form hplain, hs, Option.bind_some, hlastW]

end Declared

end PackageInfo

/-- The lines before the package header; the whole text if it has none. -/
def preambleOf (content : Text) : Text :=
  ((searchLines packageHeader? true content).map (·.1)).getD content

/-- The lines of a text without the last one, if that is not ended. -/
def endedLines (t : Text) : Text := Text.dropEndWhile (· != lineFeed) t

/-- The version of a manifest is found in lines that are statements of the document too, and the
document has one version and one name. -/
structure ReadAlike (content : Text) (site : VersionSite) : Prop where
  /-- The lines before the header are a document of their own. -/
  header : (Toml.parse? PackageInfo.dialect (preambleOf content)).isSome
  /-- So are the lines before the one that declares the version. -/
  line : (Toml.parse? PackageInfo.dialect (endedLines site.before)).isSome
  /-- The quoted version ends at the quote where the search ends it. -/
  value : (Toml.string? PackageInfo.dialect (doubleQuote :: (site.version ++ site.after))).map (·.2)
    = some site.after.tail
  /-- No key of the labels is spelled in two ways. -/
  spelling : ∀ document ∈ Toml.parse? PackageInfo.dialect content, PackageInfo.OneSpelling document

theorem preambleOf_text {decl : Declaration} (hd : decl.WellFormed) :
    preambleOf decl.text = decl.preamble := by
  rw [preambleOf, hd.searchLines_packageHeader?]
  rfl

theorem endedLines_append {s t : Text} (hs : EndsLine s) (ht : lineFeed ∉ t) :
    endedLines (s ++ t) = s := by
  obtain ⟨line, rfl⟩ := List.getLast?_eq_some_iff.1 hs
  have hall : ∀ b ∈ t.reverse, (b != lineFeed) = true := by
    intro b hb
    rw [bne_iff_ne]
    rintro rfl
    exact ht (List.mem_reverse.1 hb)
  rw [endedLines, Text.dropEndWhile, List.reverse_append, List.dropWhile_append_of_pos hall,
    List.reverse_append, List.reverse_singleton, List.singleton_append,
    List.dropWhile_cons_of_neg (by simp), List.reverse_cons, List.reverse_reverse]

theorem endedLines_before {decl : Declaration} (hd : decl.WellFormed) (hends : EndsLine decl.skipped) :
    endedLines decl.site.before = decl.preamble ++ (decl.header ++ decl.skipped) := by
  have hlines : EndsLine (decl.preamble ++ (decl.header ++ decl.skipped)) := by
    rw [EndsLine, List.getLast?_append, List.getLast?_append, show decl.skipped.getLast? = _ from hends]
    rfl
  have hbefore : decl.site.before = (decl.preamble ++ (decl.header ++ decl.skipped)) ++ decl.lead := by
    simp only [Declaration.site, List.append_assoc]
  rw [hbefore, endedLines_append hlines hd.lead_form.lineFeed_not_mem]

theorem IsDotted.isPlain {w : Text} (h : IsDotted w) : ∀ b ∈ w, Toml.isPlain b = true := by
  intro b hb
  rcases h b hb with hdigit | rfl
  · simp only [Text.isDigit, Bool.and_eq_true, decide_eq_true_eq] at hdigit
    obtain ⟨hlow, hhigh⟩ := hdigit
    have hquote : b ≠ doubleQuote := by
      rintro rfl
      exact h.not_mem (by decide) (by decide) hb
    have hbackslash : b ≠ 92 := by
      rintro rfl
      exact h.not_mem (by decide) (by decide) hb
    simp only [Toml.isPlain, Bool.and_eq_true, decide_eq_true_eq, bne_iff_ne]
    exact ⟨⟨⟨UInt8.le_trans (by decide) hlow, UInt8.lt_of_le_of_lt hhigh (by decide)⟩, hquote⟩,
      hbackslash⟩
  · decide

/-- A manifest with a string and an array over several lines, an escape in its version and a table
behind its package. -/
def layeredManifest : Text :=
  ascii "[workspace]\nmembers = [\n  \"a\", # one\n]\n\n"
    ++ ascii "[package]\nname = \"demo\"\ndescription = \"\"\"\nversion 1\n\"\"\"\n"
    ++ ascii "version = \"1.2.\\u0033\" # now\nedition = \"2021\"\n\n"
    ++ ascii "[package.metadata]\nversion = \"0\"\n"

/-- The layered manifest cut at its version. -/
def layeredSite : VersionSite where
  before := ascii "[workspace]\nmembers = [\n  \"a\", # one\n]\n\n"
    ++ ascii "[package]\nname = \"demo\"\ndescription = \"\"\"\nversion 1\n\"\"\"\nversion = \""
  version := ascii "1.2.\\u0033"
  after := ascii "\" # now\nedition = \"2021\"\n\n[package.metadata]\nversion = \"0\"\n"

/-- A document with a version, in which another one is found; and when that is replaced by `w`, the
version of the document is not `w`, if its keys are visited in some order. -/
def Misread (order : KeyOrder) (content w : Text) : Prop :=
  ∃ site info updated, PackageInfo.ofManifest? order content = some info ∧ info.version ≠ []
    ∧ findVersion? content = some site ∧ site.version ≠ info.version
    ∧ replaceVersion? content w = some updated
    ∧ (PackageInfo.ofManifest? order updated).map PackageInfo.version ≠ some w

/-- A manifest with a line inside a string that looks like the declaration of a version. -/
def hidingManifest : Text :=
  ascii "[package]\nname = \"demo\"\ndescription = \"\"\"\nversion = \"0.1.0\"\n\"\"\"\n"
    ++ ascii "version = \"1.2.3\"\n"

/-- A manifest with a line inside a string that looks like the package header. -/
def decoyManifest : Text :=
  ascii "readme = \"\"\"\n[package]\n\"\"\"\nversion = \"9\"\n[package]\nversion = \"1.2.3\"\n"

/-- A manifest whose version is written as a string over several lines. -/
def tripleManifest : Text := ascii "[package]\nversion = \"\"\"1.2.3\"\"\"\n"

/-- A manifest whose version is spelled in two ways. -/
def doubleManifest : Text := ascii "[package]\nVersion = \"9.9.9\"\nversion = \"1.2.3\"\n"

/-- Entries may be visited from the last one to the first. -/
def backwards : KeyOrder := ⟨List.reverse, List.reverse_perm⟩

end CrateBump
