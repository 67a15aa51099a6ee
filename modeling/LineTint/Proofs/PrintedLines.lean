import LineTint.Proofs.BuiltinTheme
import LineTint.Proofs.LineSplit
import LineTint.Proofs.PrintedText
import LineTint.Proofs.ProgramRun
import LineTint.Proofs.SingleCalls
import Mathlib.Data.List.Nodup

namespace LineTint

namespace Highlighter

variable {P Tree Query : Type} [SyntaxParser P Tree]

/-- The highlighter has all that tokens are computed from. -/
structure Equipped (h : Highlighter P Query) (policy : StylePolicy) (p : P) (tree : Tree) (q : Query) : Prop where
  policy_eq : h.policy = policy
  parser_eq : h.parser = some p
  tree_eq : SyntaxParser.tree? p = some tree
  query_eq : h.slot.query? = some q

def paintedLine (e : Engine Tree Query) (policy : StylePolicy) (q : Query) (tree : Tree) (text : String)
    (span : Span) : List Token :=
  paint policy span ((e.captures q tree text span).filter (!isPrivate ·))

variable {e : Engine Tree Query} {h : Highlighter P Query} {policy : StylePolicy} {p : P} {tree : Tree} {q : Query}

theorem prepare_of_ready (hready : h.slot.query?.isSome) : h.prepare e = h := by
  have hslot := QuerySlot.prepare_of_ready hready e.compile (h.parser.bind SyntaxParser.grammar?)
  rw [prepare, hslot]

theorem Equipped.prepare_eq (hh : h.Equipped policy p tree q) : h.prepare e = h :=
  prepare_of_ready (by rw [hh.query_eq]; rfl)

theorem Equipped.store (hh : h.Equipped policy p tree q) (line : LineId) (tokens : List Token) :
    (h.store line tokens h.generation).2.Equipped policy p tree q := by
  rw [store_current]
  exact ⟨hh.policy_eq, hh.parser_eq, hh.tree_eq, hh.query_eq⟩

theorem fetch_store_of_ne {line l : LineId} (tokens : List Token) (hne : line ≠ l) :
    (h.store line tokens h.generation).2.fetch l = h.fetch l := by
  apply Option.ext
  intro ts
  rw [store_current, fetch_eq_some_iff, fetch_eq_some_iff]
  change (h.cache.store line tokens h.generation).find? l = _ ↔ _
  rw [Cache.find?_store, if_neg hne]
  rfl

theorem Equipped.tokensForLine (hh : h.Equipped policy p tree q) {line : LineId} (hf : h.fetch line = none)
    (span : Span) :
    let tokens := paintedLine e policy q tree (SyntaxParser.text p) span
    h.tokensForLine e line span = (.ok tokens, (h.store line tokens h.generation).2) := by
  have hcaptures : h.captures e span =
      .ok ((e.captures q tree (SyntaxParser.text p) span).filter (!isPrivate ·)) :=
    captures_eq_ok_iff.mpr ⟨p, tree, q, hh.parser_eq, hh.tree_eq, hh.query_eq, rfl⟩
  rw [← hh.prepare_eq (e := e)] at hf hcaptures
  rw [tokensForLine_of_captures hf hcaptures, hh.prepare_eq, attributes, hh.policy_eq]
  rfl

end Highlighter

namespace Text

theorem length_linesFrom_le (acc rest : List Char) : (linesFrom acc rest).length ≤ byteLength rest + 1 := by
  fun_induction linesFrom acc rest with
  | case1 => exact Nat.le_add_left 1 _
  | case2 acc rest ih =>
      have := Char.utf8Size_pos '\r'
      simp only [List.length_cons, byteLength_cons]
      omega
  | case3 acc c rest hcrlf hc ih =>
      have := Char.utf8Size_pos c
      simp only [List.length_cons, byteLength_cons]
      omega
  | case4 acc c rest hcrlf hc ih =>
      rw [byteLength_cons]
      omega

theorem length_spansFrom (start : Nat) (ls : List (List Char)) : (spansFrom start ls).length = ls.length := by
  induction ls generalizing start with
  | nil => rfl
  | cons l ls ih => rw [spansFrom, List.length_cons, List.length_cons, ih]

end Text

theorem length_lineSpans_le (text : String) : (lineSpans text).length ≤ (Text.bytes text).length + 1 := by
  rw [lineSpans, Text.length_spansFrom, Text.length_bytes]
  exact Text.length_linesFrom_le [] text.toList

theorem end_of_paint {policy : StylePolicy} {line : Span} {captures : List Capture} {t : Token}
    (ht : t ∈ paint policy line captures) (hline : line.stop.toNat = line.start.toNat + line.len.toNat) :
    t.span.start ≤ t.span.stop ∧ t.span.stop ≤ line.len := by
  obtain ⟨c, -, hc⟩ := List.mem_filterMap.mp ht
  unfold Capture.paint at hc
  rcases Span.clip_cases c.span line with ⟨hnone, -⟩ | ⟨r, hsome, hpart⟩
  · simp [hnone] at hc
  · simp only [hsome, Option.ite_none_right_eq_some, Option.some.injEq] at hc
    obtain ⟨-, rfl⟩ := hc
    refine ⟨Span.start_le_stop r, ?_⟩
    have hstop := hpart.stop_toNat
    have := hpart.stop
    change r.stop ≤ line.len
    rw [UInt64.le_iff_toNat_le]
    omega

namespace Program

variable {Tree Query : Type} {e : Engine Tree Query}

theorem reports_cons {h h' : Highlighter (IncrementalParser Tree) Query} {source : ByteArray} {span : Span}
    {i : Nat} {tokens : List Token} (htokens : h.tokensForLine e (UInt64.ofNat i) span = (.ok tokens, h'))
    (lines : List (Span × Nat)) :
    reports e source h ((span, i) :: lines) =
      (⟨i + 1, source.extract span.start.toNat span.stop.toNat, tokens⟩ :: (reports e source h' lines).1,
        (reports e source h' lines).2) := by
  rw [reports, htokens]

theorem reports_eq {h : Highlighter (IncrementalParser Tree) Query} {policy : StylePolicy}
    {p : IncrementalParser Tree} {tree : Tree} {q : Query} (hh : h.Equipped policy p tree q) (source : ByteArray)
    {lines : List (Span × Nat)} (hids : (lines.map fun line => UInt64.ofNat line.2).Nodup)
    (hfresh : ∀ line ∈ lines, h.fetch (UInt64.ofNat line.2) = none) :
    reports e source h lines = (lines.map fun line => ⟨line.2 + 1,
      source.extract line.1.start.toNat line.1.stop.toNat,
      Highlighter.paintedLine e policy q tree p.source line.1⟩, none) := by
  induction lines generalizing h with
  | nil => rfl
  | cons line lines ih =>
      obtain ⟨span, i⟩ := line
      obtain ⟨hi, hids⟩ := List.nodup_cons.mp hids
      obtain ⟨hf, hfresh⟩ := List.forall_mem_cons.mp hfresh
      let tokens := Highlighter.paintedLine e policy q tree p.source span
      have htokens : h.tokensForLine e (UInt64.ofNat i) span =
          (.ok tokens, (h.store (UInt64.ofNat i) tokens h.generation).2) := hh.tokensForLine hf span
      have hrest := ih (hh.store (UInt64.ofNat i) tokens) hids (by
        intro line hline
        have hne : UInt64.ofNat i ≠ UInt64.ofNat line.2 := by
          intro heq
          exact hi (List.mem_map.mpr ⟨line, hline, heq.symm⟩)
        rw [Highlighter.fetch_store_of_ne tokens hne, hfresh line hline])
      rw [reports_cons htokens, hrest]
      rfl

variable {home : Home} {fs fs' : FileSystem} {a : Arguments} {c : Config} {t : Theme} {job : Job Tree Query}

/-- With these arguments the program gets as far as printing the lines of `job`. -/
structure Prints (e : Engine Tree Query) (home : Home) (fs fs' : FileSystem) (a : Arguments) (t : Theme)
    (job : Job Tree Query) : Prop where
  not_listing : a.listThemes = false
  chosen : chooseTheme home (home.makeLogs fs).1 a (configOf home fs) = (fs', .ok t)
  prepared : prepare e home fs' a (configOf home fs) t = .ok job

theorem Prints.perform_eq (h : Prints e home fs fs' a t job) : perform e home fs a = (fs', job.run e) := by
  obtain ⟨grammar, q, hready⟩ := prepare_eq_ok_iff.mp h.prepared
  obtain ⟨file, language, hfile, -⟩ := hready.exists_file
  rw [perform_of_chosen h.not_listing h.chosen]
  simp only [highlight, hfile, Option.isNone_some, Bool.false_and, Bool.false_eq_true, if_false, h.prepared]

theorem Prints.json (h : Prints e home fs fs' a t job) (json : Bool) :
    Prints e home fs fs' { a with json } t { job with json } := by
  obtain ⟨grammar, q, hready⟩ := prepare_eq_ok_iff.mp h.prepared
  exact ⟨h.not_listing, h.chosen, prepare_eq_ok_iff.mpr ⟨grammar, q, { hready with json_eq := rfl }⟩⟩

theorem Prints.unfiltered (h : Prints e home fs fs' a t job) :
    Prints e home fs fs' { a with lines := none } t { job with filter := none } := by
  obtain ⟨grammar, q, hready⟩ := prepare_eq_ok_iff.mp h.prepared
  exact ⟨h.not_listing, h.chosen, prepare_eq_ok_iff.mpr ⟨grammar, q, { hready with filter_eq := rfl }⟩⟩

def tokenRow (source : String) (line : Span × Nat) (t : Token) : String :=
  t.row (line.2 + 1) (Text.decodeLossy ((Text.bytes source).extract
    (line.1.start.toNat + t.span.start.toNat) (line.1.start.toNat + t.span.stop.toNat)))

/-- What is printed of one line: one object, or a row for each of its tokens. -/
def page (json : Bool) (source : String) (tokens : Span → List Token) (line : Span × Nat) : List String :=
  if json then
    [Json.object [("line", toString (line.2 + 1)), ("tokens", Json.list ((tokens line.1).map Token.toJson))]]
  else (tokens line.1).map (tokenRow source line)

section

variable {source : String} {tokens : Span → List Token} {line : Span × Nat}

theorem data_toUTF8 (source : String) : source.toUTF8.data.toList = Text.bytes source := by
  rw [String.toUTF8, ← String.utf8Encode_toList, List.utf8Encode]
  simp [Text.bytes, Text.encode]

theorem page_json_inj {source' : String} {tokens' : Span → List Token} {line' : Span × Nat}
    (h : page true source tokens line = page true source' tokens' line') :
    line.2 = line'.2 ∧ tokens line.1 = tokens' line'.1 := by
  have hjson : (⟨line.2 + 1, .empty, tokens line.1⟩ : LineReport).toJson =
      (⟨line'.2 + 1, .empty, tokens' line'.1⟩ : LineReport).toJson := List.singleton_inj.mp h
  obtain ⟨hnumber, htokens⟩ := LineReport.toJson_inj hjson
  exact ⟨Nat.succ_inj.mp hnumber, htokens⟩

theorem tokenRow_inj {source' : String} {line' : Span × Nat} {t u : Token}
    (h : tokenRow source line t = tokenRow source' line' u) :
    line.2 = line'.2 ∧ t.span.start = u.span.start ∧ t.span.stop = u.span.stop ∧ t.color = u.color ∧
      t.font = u.font := by
  obtain ⟨hnumber, hstart, hstop, hcolor, hfont, -⟩ := Token.row_inj h
  exact ⟨Nat.succ_inj.mp hnumber, hstart, hstop, hcolor, hfont⟩

theorem printed_eq_page (json : Bool)
    (hstop : line.1.stop.toNat = line.1.start.toNat + line.1.len.toNat)
    (hin : ∀ t ∈ tokens line.1, t.span.stop ≤ line.1.len) :
    (⟨line.2 + 1, source.toUTF8.extract line.1.start.toNat line.1.stop.toNat, tokens line.1⟩ :
      LineReport).printed json = page json source tokens line := by
  cases json with
  | true => simp only [LineReport.printed, LineReport.toJson, page, if_true]
  | false =>
      simp only [LineReport.printed, page, Bool.false_eq_true, if_false]
      refine List.map_congr_left fun t ht => ?_
      have hle := UInt64.le_iff_toNat_le.mp (hin t ht)
      have hfragment : t.fragment (source.toUTF8.extract line.1.start.toNat line.1.stop.toNat) =
          Text.decodeLossy ((Text.bytes source).extract
            (line.1.start.toNat + t.span.start.toNat) (line.1.start.toNat + t.span.stop.toNat)) := by
        rw [Token.fragment, ByteArray.extract_extract, hstop, Nat.min_eq_left (by omega),
          ByteArray.data_extract, Array.toList_extract, data_toUTF8]
      rw [LineReport.row, tokenRow, hfragment]

end

theorem nodup_lineIds {source : String} (hsize : (Text.bytes source).length ≤ Offset.last.toNat) :
    ((lineSpans source).zipIdx.map fun line => UInt64.ofNat line.2).Nodup := by
  have hlength := length_lineSpans_le source
  have hids : (lineSpans source).zipIdx.map (fun line => UInt64.ofNat line.2) =
      (List.range' 0 (lineSpans source).length).map UInt64.ofNat := by
    rw [← List.zipIdx_map_snd, List.map_map]
    rfl
  rw [Offset.toNat_last] at hsize
  rw [hids]
  refine List.Nodup.map_on (fun i hi j hj hij => ?_) List.nodup_range'
  have hi := List.mem_range'_1.mp hi
  have hj := List.mem_range'_1.mp hj
  have heq := congrArg UInt64.toNat hij
  rwa [UInt64.toNat_ofNat_of_lt' (by change _ < 2 ^ 64; omega),
    UInt64.toNat_ofNat_of_lt' (by change _ < 2 ^ 64; omega)] at heq

theorem filter_zipIdx_between {α : Type} (xs : List α) (i first last : Nat) :
    (xs.zipIdx i).filter (fun x => decide (first ≤ x.2 ∧ x.2 ≤ last)) =
      ((xs.zipIdx i).drop (first - i)).take (last + 1 - max first i) := by
  induction xs generalizing i with
  | nil => simp
  | cons x xs ih =>
      rw [List.zipIdx_cons, List.filter_cons, ih]
      rcases Nat.lt_or_ge i first with hfirst | hfirst
      · have hdrop : first - i = first - (i + 1) + 1 := by omega
        have hmax : max first i = max first (i + 1) := by omega
        rw [if_neg (by simp; omega), hdrop, List.drop_succ_cons, hmax]
      · rw [Nat.sub_eq_zero_of_le hfirst, Nat.sub_eq_zero_of_le (Nat.le_succ_of_le hfirst), List.drop_zero,
          List.drop_zero, Nat.max_eq_right hfirst, Nat.max_eq_right (Nat.le_succ_of_le hfirst)]
        rcases Nat.lt_or_ge last i with hlast | hlast
        · rw [if_neg (by simp; omega), Nat.sub_eq_zero_of_le hlast, Nat.sub_eq_zero_of_le (by omega)]
          rfl
        · have htake : last + 1 - i = last - i + 1 := by omega
          rw [if_pos (by simp; omega), htake, List.take_succ_cons, Nat.add_sub_add_right]

theorem mem_lineSpans_of_chosen {filter : Option LineFilter} {source : String} {line : Span × Nat}
    (hline : line ∈ chosenLines filter source) : line.1 ∈ lineSpans source := by
  have hmem := List.mem_map_of_mem (f := Prod.fst) (List.mem_of_mem_filter hline)
  rwa [List.zipIdx_map_fst] at hmem

theorem stop_of_mem {source : String} {line : Span} (hline : line ∈ lineSpans source)
    (hsize : (Text.bytes source).length ≤ Offset.last.toNat) :
    line.stop.toNat = line.start.toNat + line.len.toNat := by
  obtain ⟨before, content, after, -, hmeasures⟩ := Text.exists_cut_of_mem hline hsize
  rw [hmeasures.stop, hmeasures.start, hmeasures.len]

theorem Ready.run_eq {grammar : Grammar} {q : Query} (h : Ready e home fs a c t grammar q job)
    (hsize : (Text.bytes job.source).length ≤ Offset.last.toNat) :
    job.run e = ⟨(chosenLines job.filter job.source).flatMap (page job.json job.source
      (Highlighter.paintedLine e t.policy q (e.parse grammar none job.source) job.source)), .done⟩ := by
  have hequipped : job.highlighter.Equipped t.policy (IncrementalParser.parse e { grammar } job.source)
      (e.parse grammar none job.source) q := by
    rw [h.highlighter_eq]
    exact ⟨rfl, rfl, rfl, by rw [query?_prepared, h.compiles]⟩
  have hfresh (line : Span × Nat) (_ : line ∈ chosenLines job.filter job.source) :
      job.highlighter.fetch (UInt64.ofNat line.2) = none := by
    rw [h.highlighter_eq]
    rfl
  have hids : ((chosenLines job.filter job.source).map fun line => UInt64.ofNat line.2).Nodup :=
    (nodup_lineIds hsize).sublist (List.filter_sublist.map _)
  rw [Job.run, reports_eq hequipped job.source.toUTF8 hids hfresh]
  change Outcome.mk _ _ = _
  rw [List.flatMap_map]
  refine congrArg (Outcome.mk · Ending.done) (List.flatMap_congr fun line hline => ?_)
  have hstop := stop_of_mem (mem_lineSpans_of_chosen hline) hsize
  exact printed_eq_page job.json hstop fun token htoken => (end_of_paint htoken hstop).2

theorem Prints.perform_unfiltered (h : Prints e home fs fs' a t job) {grammar : Grammar} {q : Query}
    (hready : Ready e home fs' a (configOf home fs) t grammar q job)
    (hsize : (Text.bytes job.source).length ≤ Offset.last.toNat) (json : Bool) :
    perform e home fs { a with json, lines := none } = (fs', ⟨(lineSpans job.source).zipIdx.flatMap
      (page json job.source (Highlighter.paintedLine e t.policy q (e.parse grammar none job.source) job.source)),
        .done⟩) := by
  have hready' : Ready e home fs' { a with json, lines := none } (configOf home fs) t grammar q
      { job with json, filter := none } :=
    { hready with filter_eq := rfl, json_eq := rfl }
  have hall : chosenLines none job.source = (lineSpans job.source).zipIdx := by
    rw [chosenLines]
    exact List.filter_true _
  rw [(h.json json).unfiltered.perform_eq, hready'.run_eq hsize, hall]

theorem Prints.perform_filtered (h : Prints e home fs fs' a t job) {grammar : Grammar} {q : Query}
    (hready : Ready e home fs' a (configOf home fs) t grammar q job)
    (hsize : (Text.bytes job.source).length ≤ Offset.last.toNat) {f : LineFilter}
    (hf : a.lineFilter = .ok (some f)) (json : Bool) :
    perform e home fs { a with json } = (fs', ⟨((lineSpans job.source).zipIdx.filter
      fun line => decide (f.first ≤ line.2 ∧ line.2 ≤ f.last)).flatMap (page json job.source
        (Highlighter.paintedLine e t.policy q (e.parse grammar none job.source) job.source)), .done⟩) := by
  have hready' : Ready e home fs' { a with json } (configOf home fs) t grammar q
      { job with json } := { hready with json_eq := rfl }
  have hchosen : chosenLines job.filter job.source = (lineSpans job.source).zipIdx.filter
      fun line => decide (f.first ≤ line.2 ∧ line.2 ≤ f.last) := by
    rw [← Except.ok.inj (hf.symm.trans hready.filter_eq), chosenLines]
    refine List.filter_congr fun line _ => ?_
    simp [LineFilter.contains]
  rw [(h.json json).perform_eq, hready'.run_eq hsize, hchosen]

/-- What is printed is a page for each line, one after the other, with the same tokens in both formats. A run
that is asked for some lines prints their pages, which stand together in the run that prints all. The number
and the tokens of a line can be told from its JSON, and the number of the line, the place and the look of a
token from its row. -/
theorem perform_prints_pages (h : Prints e home fs fs' a t job)
    (hsize : (Text.bytes job.source).length ≤ Offset.last.toNat) :
    ∃ grammar q, Ready e home fs' a (configOf home fs) t grammar q job ∧
      let tokens := Highlighter.paintedLine e t.policy q (e.parse grammar none job.source) job.source
      let pages json := (lineSpans job.source).zipIdx.map (page json job.source tokens)
      (∀ json, perform e home fs { a with json, lines := none } = (fs', ⟨(pages json).flatten, .done⟩)) ∧
        (∀ f, a.lineFilter = .ok (some f) → ∀ json,
          perform e home fs { a with json } = (fs', ⟨((lineSpans job.source).zipIdx.filter
            fun line => decide (f.first ≤ line.2 ∧ line.2 ≤ f.last)).flatMap (page json job.source tokens), .done⟩) ∧
          perform e home fs { a with json } =
            (fs', ⟨(((pages json).drop f.first).take (f.last + 1 - f.first)).flatten, .done⟩) ∧
          ((lineSpans job.source).length ≤ f.first → perform e home fs { a with json } = (fs', ⟨[], .done⟩))) ∧
        (∀ line ∈ lineSpans job.source,
          String.Pos.Raw.IsValid job.source ⟨line.start.toNat⟩ ∧ String.Pos.Raw.IsValid job.source ⟨line.stop.toNat⟩ ∧
            line.stop.toNat = line.start.toNat + line.len.toNat ∧
              ∀ token ∈ tokens line, token.span.start ≤ token.span.stop ∧ token.span.stop ≤ line.len) ∧
        (∀ source' tokens' line line', page true job.source tokens line = page true source' tokens' line' →
          line.2 = line'.2 ∧ tokens line.1 = tokens' line'.1) ∧
        ∀ source' line line' token token', tokenRow job.source line token = tokenRow source' line' token' →
          line.2 = line'.2 ∧ token.span.start = token'.span.start ∧ token.span.stop = token'.span.stop ∧
            token.color = token'.color ∧ token.font = token'.font := by
  obtain ⟨grammar, q, hready⟩ := prepare_eq_ok_iff.mp h.prepared
  refine ⟨grammar, q, hready, ?_, ?_, ?_, fun _ _ _ _ => page_json_inj, fun _ _ _ _ _ => tokenRow_inj⟩
  · intro json
    rw [h.perform_unfiltered hready hsize, List.flatMap_def]
  · intro f hf json
    have hfiltered := h.perform_filtered hready hsize hf json
    have hpart := hfiltered
    rw [filter_zipIdx_between, Nat.sub_zero, Nat.max_eq_left (Nat.zero_le _), List.flatMap_def, List.map_take,
      List.map_drop] at hpart
    refine ⟨hfiltered, hpart, fun hpast => ?_⟩
    rw [hpart, List.drop_eq_nil_of_le (by simpa using hpast), List.take_nil, List.flatten_nil]
  · intro line hline
    obtain ⟨hstart, hstop⟩ := (Text.lineSpans_splitFrom hsize).valid line hline
    have hlen := stop_of_mem hline hsize
    exact ⟨hstart, hstop, hlen, fun token htoken => end_of_paint htoken hlen⟩

def oneFile : FileSystem where
  root := .directory [("a.rs", .file (Text.bytes "fn a\nlet b\n"))]

def secondLine : Arguments where
  file := some "a.rs"
  lines := some "2:2"

def keywordStyle : Style := { color := some ⟨0xCC, 0x78, 0x32, 0xFF⟩ }

theorem paintedLine_rustOnly {policy : StylePolicy} (h : policy "keyword" = keywordStyle) (q : Grammar) (text : String) :
    Highlighter.paintedLine Highlighter.rustOnly policy q () text =
      Highlighter.paintedLine Highlighter.rustOnly (fun _ => keywordStyle) { language := .rust } () text := by
  funext line
  refine List.filterMap_congr fun c hc => ?_
  obtain rfl : c = ⟨"keyword", line⟩ := List.mem_singleton.mp (List.mem_of_mem_filter hc)
  unfold Capture.paint
  rw [h]

theorem exists_prints : ∃ fs' t job, Prints Highlighter.rustOnly Home.atRoot oneFile fs' secondLine t job ∧
    job.source = "fn a\nlet b\n" ∧ t.policy "keyword" = keywordStyle := by
  obtain ⟨t, htext, ht⟩ := Theme.exists_defaultDark
  have htheme : (configOf Home.atRoot oneFile).theme = "default-dark" := by decide +kernel
  have hload : Theme.load (Home.atRoot.makeLogs oneFile).1 Home.atRoot (configOf Home.atRoot oneFile).theme = .ok t := by
    rw [htheme]
    exact Theme.load_builtin (by decide +kernel) Theme.builtin?_defaultDark htext
  have hsource : (Home.atRoot.makeLogs oneFile).1.readText "a.rs" = .ok "fn a\nlet b\n" := by decide +kernel
  have hready : Ready Highlighter.rustOnly Home.atRoot (Home.atRoot.makeLogs oneFile).1 secondLine
      (configOf Home.atRoot oneFile) t { language := .rust } { language := .rust }
      ⟨"fn a\nlet b\n", (opened Highlighter.rustOnly t.policy { language := .rust } "fn a\nlet b\n").prepare
        Highlighter.rustOnly, some ⟨1, 1, Nat.le_refl 1⟩, false⟩ :=
    ⟨rfl, rfl, rfl, rfl, "a.rs", .rust, rfl, by decide +kernel, by decide +kernel, hsource⟩
  exact ⟨_, t, _, ⟨rfl, chooseTheme_of_load hload rfl, prepare_eq_ok_iff.mpr ⟨_, _, hready⟩⟩, rfl, congrArg Prod.snd ht⟩

theorem perform_prints_pages_second : ∃ fs' t job,
    Prints Highlighter.rustOnly Home.atRoot oneFile fs' secondLine t job ∧
      (Text.bytes job.source).length ≤ Offset.last.toNat ∧
      perform Highlighter.rustOnly Home.atRoot oneFile secondLine =
        (fs', ⟨["    2    0..5    #CC7832               \"let b\""], .done⟩) ∧
      perform Highlighter.rustOnly Home.atRoot oneFile { secondLine with json := true, lines := none } =
        (fs', ⟨[
          "\x7b\"line\":1,\"tokens\":[\x7b\"range\":\x7b\"start\":0,\"len\":4\x7d,\"color\":\"#CC7832\"," ++
            "\"font\":\x7b\"bold\":false,\"italic\":false\x7d\x7d]\x7d",
          "\x7b\"line\":2,\"tokens\":[\x7b\"range\":\x7b\"start\":0,\"len\":5\x7d,\"color\":\"#CC7832\"," ++
            "\"font\":\x7b\"bold\":false,\"italic\":false\x7d\x7d]\x7d",
          "\x7b\"line\":3,\"tokens\":[]\x7d"], .done⟩) := by
  obtain ⟨fs', t, job, hprints, hsource, hpolicy⟩ := exists_prints
  have hsize : (Text.bytes job.source).length ≤ Offset.last.toNat := by
    rw [hsource]
    decide
  obtain ⟨grammar, q, hready, hall, hsome, -⟩ := perform_prints_pages hprints hsize
  refine ⟨fs', t, job, hprints, hsize, ?_, ?_⟩
  · refine (hsome ⟨1, 1, Nat.le_refl 1⟩ rfl false).1.trans ?_
    rw [paintedLine_rustOnly hpolicy, hsource]
    exact congrArg (fun output => (fs', Outcome.mk output .done)) (by decide +kernel)
  · refine (hall true).trans ?_
    rw [paintedLine_rustOnly hpolicy, hsource]
    exact congrArg (fun output => (fs', Outcome.mk output .done)) (by decide +kernel)

end Program
end LineTint
