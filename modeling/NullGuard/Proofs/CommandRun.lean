import NullGuard.CommandLine.Run
import NullGuard.Proofs.Convergence
import NullGuard.Proofs.FileContents
import NullGuard.Proofs.JsonText
import NullGuard.Proofs.Settings

/-!
Runs of the command over many files. The sources are dealt with one after another, each repaired, read
again and analysed before the next. A step touches no file but the one its path leads to, so where no
two paths lead to the same file the contents that a source is analysed with are those it has at the end,
and what becomes of a file does not depend on the other paths, whether these can be read and written or
not.
-/
namespace NullGuard.CommandLine

/-- What the options ask to make of a source. -/
def Options.repaired (options : Options) (parse : Parser) (p : Path) (source : Bytes) : Bytes :=
  if options.fix then
    (Fixed.run parse (some p.text) options.maxDepth Fixed.defaultPasses source).source
  else source

/-- What a run with the options leaves of a source. It is written only if it is to change. -/
def Options.outcome (options : Options) (parse : Parser) (files : FileTree) (p : Path)
    (source : Bytes) : Bytes :=
  if options.repaired parse p source = source then source
  else files.written p source (options.repaired parse p source)

/-- The file that a path leads to can be read, and written if it is to change. -/
def Options.analyses (options : Options) (parse : Parser) (files : FileTree) (p : Path) : Bool :=
  match files.readAt p with
  | .error _ => false
  | .ok source => options.repaired parse p source = source || (files.writeFault? p).isNone

/-- Every file among the paths that is to change can be written. -/
def Options.Writable (options : Options) (parse : Parser) (files : FileTree) (paths : List Path) :
    Prop :=
  ∀ p ∈ paths, ∀ source, files.readAt p = .ok source → options.repaired parse p source ≠ source →
    files.writeFault? p = none

/-- The findings in the file that a path leads to. -/
def findingsAt (parse : Parser) (limit : Int) (files : FileTree) (p : Path) :
    List (Path × Finding) :=
  match files.file? p with
  | some source => ((CompilationUnit.read parse source (some p.text)).findings limit).map (p, ·)
  | none => []

theorem findingsAt_congr (parse : Parser) (limit : Int) {files files' : FileTree} {p : Path}
    (same : files'.file? p = files.file? p) :
    findingsAt parse limit files' p = findingsAt parse limit files p := by
  rw [findingsAt, findingsAt, same]

namespace Options

variable {options : Options} {parse : Parser} {files files' : FileTree} {p : Path} {source : Bytes}

theorem outcome_congr (same : files.SameShape files') :
    options.outcome parse files' p source = options.outcome parse files p source := by
  rw [outcome, outcome, FileTree.written, FileTree.written, same.writeFault?_eq]

theorem analyses_congr (same : files.SameShape files') (contents : files'.file? p = files.file? p) :
    options.analyses parse files' p = options.analyses parse files p := by
  rw [analyses, analyses, same.readAt_eq contents, same.writeFault?_eq]

theorem outcome_eq_repaired
    (sound : options.repaired parse p source ≠ source → files.writeFault? p = none) :
    options.outcome parse files p source = options.repaired parse p source := by
  rw [outcome]
  split
  next unchanged => exact unchanged.symm
  next changed => rw [FileTree.written, sound changed, Option.elim_none]

theorem outcome_of_fault {fault : Fault} (changed : options.repaired parse p source ≠ source)
    (fails : files.writeFault? p = some fault) :
    options.outcome parse files p source = fault.leaves source (options.repaired parse p source) := by
  rw [outcome, if_neg changed, FileTree.written, fails, Option.elim_some]

theorem Writable.filter_analyses {paths : List Path} (writable : options.Writable parse files paths) :
    paths.filter (options.analyses parse files) = paths.filter fun p => (files.readAt p).isOk := by
  refine List.filter_congr fun p member => ?_
  rw [analyses]
  cases read : files.readAt p with
  | error fault => rfl
  | ok source =>
    by_cases unchanged : options.repaired parse p source = source
    · simp [unchanged, Except.isOk, Except.toBool]
    · simp [writable p member source read unchanged, Except.isOk, Except.toBool]

end Options

namespace Tally

variable {parse : Parser} {options : Options} {t t' t'' : Tally} {p : Path} {source : Bytes}

theorem analyze_of_error (parse : Parser) {fault : Fault} (failed : t.files.readAt p = .error fault)
    (limit : Int) : ∃ log, t.analyze parse limit p = t.logged log := by
  unfold analyze FileTree.analyze FileTree.unitAt
  rw [failed]
  cases t.files.file? p with
  | none => exact ⟨_, rfl⟩
  | some source => exact ⟨_, rfl⟩

theorem analyze_of_ok (parse : Parser) (read : t.files.readAt p = .ok source) (limit : Int) :
    (t.analyze parse limit p).files = t.files ∧
      (t.analyze parse limit p).findings = t.findings ++ findingsAt parse limit t.files p ∧
      (t.analyze parse limit p).analysed = t.analysed + 1 := by
  unfold analyze FileTree.analyze FileTree.unitAt findingsAt
  rw [FileTree.file?_of_readAt read, read]
  exact ⟨rfl, rfl, rfl⟩

/-- What trying to repair a source that can be read does, and when it succeeds. -/
theorem repair_replaces (parse : Parser) (fix : options.fix = true)
    (read : t.files.readAt p = .ok source) :
    let repair := t.repair parse options.maxDepth p
    t.files.Replaced p (options.outcome parse t.files p source) repair.1.files ∧
      repair.1.findings = t.findings ∧ repair.1.analysed = t.analysed ∧
      repair.2 = options.analyses parse t.files p := by
  intro repair
  have found := FileTree.file?_of_readAt read
  have repaired : options.repaired parse p source =
      (Fixed.run parse (some p.text) options.maxDepth Fixed.defaultPasses source).source := by
    rw [Options.repaired, if_pos fix]
  simp only [repair, Tally.repair, Options.outcome, Options.analyses, read, ← repaired]
  by_cases unchanged : options.repaired parse p source = source
  · simp only [unchanged, if_true, decide_true, Bool.true_or]
    exact ⟨FileTree.replaced_self found, rfl, rfl, trivial⟩
  · obtain ⟨replaced, fault⟩ := FileTree.write_replaces found (options.repaired parse p source)
    simp only [unchanged, if_false, decide_false, Bool.false_or, fault]
    cases t.files.writeFault? p with
    | none => exact ⟨replaced, rfl, rfl, rfl⟩
    | some fault => exact ⟨replaced, rfl, rfl, rfl⟩

/-- What dealing with some paths, one after another, does to a tally. -/
structure Ran (parse : Parser) (options : Options) (paths : List Path) (t t' : Tally) : Prop where
  shape : t.files.SameShape t'.files
  /-- Each file among the paths that can be read ends as what the options ask for, as far as it can be
  written. -/
  inside : ∀ p ∈ paths, ∀ source, t.files.readAt p = .ok source →
    t'.files.file? p = some (options.outcome parse t.files p source)
  /-- No other file changes. -/
  outside : ∀ l, (∀ p ∈ paths, ∀ source, t.files.readAt p = .ok source → t.files.locate p ≠ .ok l) →
    t'.files.read? l = t.files.read? l
  unrepaired : options.fix = false → t'.files = t.files
  /-- The findings are those in the contents at the end. -/
  findings : t'.findings = t.findings ++
    (paths.filter (options.analyses parse t.files)).flatMap (findingsAt parse options.maxDepth t'.files)
  analysed : t'.analysed = t.analysed + (paths.filter (options.analyses parse t.files)).length

/-- A path whose file cannot be read is passed over. -/
theorem ran_of_error {fault : Fault} (failed : t.files.readAt p = .error fault) (log : Log) :
    Ran parse options [p] t (t.logged log) := by
  have idle : options.analyses parse t.files p = false := by
    rw [Options.analyses, failed]
  refine ⟨.refl t.files, ?_, fun _ _ => rfl, fun _ => rfl, ?_, ?_⟩
  · intro q member source read
    rw [List.mem_singleton.1 member, failed] at read
    cases read
  · rw [List.filter_singleton, idle, cond_false, List.flatMap_nil, List.append_nil]
    rfl
  · rw [List.filter_singleton, idle]
    rfl

/-- A path whose file can be read, once it has been repaired. -/
theorem ran_of_ok (read : t.files.readAt p = .ok source)
    (replaced : t.files.Replaced p (options.outcome parse t.files p source) t'.files)
    (unrepaired : options.fix = false → t'.files = t.files) (findings : t'.findings = t.findings)
    (analysed : t'.analysed = t.analysed) :
    Ran parse options [p] t
      (if options.analyses parse t.files p then t'.analyze parse options.maxDepth p else t') := by
  obtain ⟨l, leads, -, sound⟩ := FileTree.readAt_eq_ok_iff.1 read
  have again : t'.files.readAt p = .ok (options.outcome parse t.files p source) := by
    have leads' := (replaced.shape.locate_eq p).trans leads
    refine FileTree.readAt_eq_ok_iff.2 ⟨l, leads', ?_, by rw [replaced.shape.readFaults, sound]⟩
    rw [← FileTree.file?_of_locate leads', replaced.inside]
  obtain ⟨files, more, counted⟩ := analyze_of_ok parse again options.maxDepth
  have kept : (if options.analyses parse t.files p then t'.analyze parse options.maxDepth p
      else t').files = t'.files := by
    split
    · exact files
    · rfl
  constructor
  · rw [kept]
    exact replaced.shape
  · intro q member source' read'
    rw [List.mem_singleton.1 member, read] at read'
    cases read'
    rw [List.mem_singleton.1 member, kept]
    exact replaced.inside
  · intro l elsewhere
    rw [kept]
    exact replaced.outside l (elsewhere p (List.mem_singleton_self p) source read)
  · rw [kept]
    exact unrepaired
  · rw [kept, List.filter_singleton]
    cases options.analyses parse t.files p with
    | true => simp only [if_true, cond_true, more, findings, List.flatMap_singleton]
    | false =>
      simp only [Bool.false_eq_true, if_false, cond_false, findings, List.flatMap_nil, List.append_nil]
  · rw [List.filter_singleton]
    cases options.analyses parse t.files p with
    | true => simp only [if_true, cond_true, counted, analysed, List.length_singleton]
    | false =>
      simp only [Bool.false_eq_true, if_false, cond_false, analysed, List.length_nil, Nat.add_zero]

/-- One source. -/
theorem ran_step (parse : Parser) (options : Options) (t : Tally) (p : Path) :
    Ran parse options [p] t (t.step parse options p) := by
  unfold step
  cases fix : options.fix with
  | false =>
    simp only [Bool.false_eq_true, if_false]
    cases read : t.files.readAt p with
    | error fault =>
      obtain ⟨log, same⟩ := analyze_of_error parse read options.maxDepth
      rw [same]
      exact ran_of_error read log
    | ok source =>
      have repaired : options.repaired parse p source = source := by
        rw [Options.repaired, fix]
        rfl
      have analysed : options.analyses parse t.files p = true := by
        rw [Options.analyses, read]
        simp only [repaired, decide_true, Bool.true_or]
      have outcome : options.outcome parse t.files p source = source := by
        rw [Options.outcome, if_pos repaired]
      have replaced : t.files.Replaced p (options.outcome parse t.files p source) t.files := by
        rw [outcome]
        exact FileTree.replaced_self (FileTree.file?_of_readAt read)
      have ran := ran_of_ok read replaced (fun _ => rfl) rfl rfl
      rwa [if_pos analysed] at ran
  | true =>
    simp only [if_true]
    cases read : t.files.readAt p with
    | error fault =>
      have failed : t.repair parse options.maxDepth p =
          (t.logged [.notRewritten p.text (fault.message p)], false) := by
        rw [repair, read]
      rw [failed]
      exact ran_of_error read _
    | ok source =>
      obtain ⟨replaced, findings, analysed, succeeded⟩ := repair_replaces parse fix read
      rw [succeeded]
      exact ran_of_ok read replaced (by simp [fix]) findings analysed

namespace Ran

variable {paths : List Path}

/-- The file that a path leads to stays as it is while paths are dealt with that lead elsewhere. -/
theorem file?_eq (ran : Ran parse options paths t t') (apart : ∀ q ∈ paths, t.files.Apart p q) :
    t'.files.file? p = t.files.file? p := by
  cases leads : t.files.locate p with
  | error e =>
    rw [FileTree.file?, FileTree.file?, ran.shape.locate_eq, leads]
    rfl
  | ok l =>
    rw [FileTree.file?_of_locate leads,
      FileTree.file?_of_locate ((ran.shape.locate_eq p).trans leads)]
    refine ran.outside l fun q member source read same => ?_
    obtain ⟨m, leads', held, -⟩ := FileTree.readAt_eq_ok_iff.1 read
    cases same.symm.trans leads'
    rw [apart q member l leads same] at held
    cases held

/-- A file among the paths that can be written, if it is to change, ends as what the options ask for. -/
theorem inside_of_writable (ran : Ran parse options paths t t') (member : p ∈ paths)
    (read : t.files.readAt p = .ok source)
    (sound : options.repaired parse p source ≠ source → t.files.writeFault? p = none) :
    t'.files.file? p = some (options.repaired parse p source) := by
  rw [ran.inside p member source read, Options.outcome_eq_repaired sound]

/-- One path after the other, if they lead to different files. -/
theorem cons (first : Ran parse options [p] t t') (rest : Ran parse options paths t' t'')
    (apart : ∀ q ∈ paths, t.files.Apart p q) : Ran parse options (p :: paths) t t'' := by
  -- The findings of the first path were taken before the others were dealt with, and the others are
  -- read after it: neither sees what the other wrote.
  have kept : t''.files.file? p = t'.files.file? p :=
    rest.file?_eq fun q member => first.shape.apart (apart q member)
  have waits : ∀ q ∈ paths, t'.files.file? q = t.files.file? q := by
    intro q member
    refine first.file?_eq fun r single => ?_
    rw [List.mem_singleton.1 single]
    exact (apart q member).symm
  have same : paths.filter (options.analyses parse t'.files) =
      paths.filter (options.analyses parse t.files) :=
    List.filter_congr fun q member => Options.analyses_congr first.shape (waits q member)
  have whole : (p :: paths).filter (options.analyses parse t.files) =
      [p].filter (options.analyses parse t.files) ++ paths.filter (options.analyses parse t.files) :=
    List.filter_append [p] paths
  constructor
  · exact first.shape.trans rest.shape
  · intro q member source read
    rcases List.mem_cons.1 member with rfl | member
    · rw [kept]
      exact first.inside q (List.mem_singleton_self q) source read
    · rw [← Options.outcome_congr first.shape]
      exact rest.inside q member source ((first.shape.readAt_eq (waits q member)).trans read)
  · intro l elsewhere
    rw [rest.outside l, first.outside l]
    · intro q single
      rw [List.mem_singleton.1 single]
      exact elsewhere p List.mem_cons_self
    · intro q member source read
      rw [first.shape.readAt_eq (waits q member)] at read
      rw [first.shape.locate_eq]
      exact elsewhere q (List.mem_cons_of_mem p member) source read
  · intro unfixed
    exact (rest.unrepaired unfixed).trans (first.unrepaired unfixed)
  · have taken : ([p].filter (options.analyses parse t.files)).flatMap
        (findingsAt parse options.maxDepth t'.files) =
        ([p].filter (options.analyses parse t.files)).flatMap
          (findingsAt parse options.maxDepth t''.files) := by
      refine List.flatMap_congr fun q member => ?_
      rw [List.mem_singleton.1 (List.mem_of_mem_filter member)]
      exact (findingsAt_congr parse options.maxDepth kept).symm
    rw [rest.findings, first.findings, same, whole, List.flatMap_append, taken, List.append_assoc]
  · rw [rest.analysed, first.analysed, same, whole, List.length_append, Nat.add_assoc]

end Ran

/-- All sources of a run, one after another. -/
theorem ran_foldl (parse : Parser) (options : Options) (paths : List Path) (t : Tally)
    (apart : paths.Pairwise t.files.Apart) :
    Ran parse options paths t (paths.foldl (Tally.step parse options) t) := by
  induction paths generalizing t with
  | nil => exact ⟨.refl t.files, nofun, fun _ _ => rfl, fun _ => rfl, by simp, by simp⟩
  | cons p paths ih =>
    obtain ⟨differ, apart⟩ := List.pairwise_cons.1 apart
    have first := ran_step parse options t p
    exact first.cons (ih _ (apart.imp first.shape.apart)) differ

end Tally

/-- The tally after all sources of a check. -/
def tally (parse : Parser) (options : Options) (files : FileTree) : Tally :=
  let paths := options.paths.map Path.ofText
  (files.sources paths).foldl (Tally.step parse options) { files, log := files.sourcesLog paths }

/-- The result of a check, but for the log, by the tally after all sources. -/
theorem exists_check_eq (parse : Parser) (options : Options) (files : FileTree) :
    let t := tally parse options files
    ∃ log, check parse options files =
      .ofLog (if t.analysed = 0 then 2 else if t.findings.isEmpty then 0 else 1)
        (if t.analysed = 0 then "" else t.report options.json) options log t.files := by
  intro t
  by_cases nothing : (files.sources (options.paths.map Path.ofText)).isEmpty = true
  · have start : t = { files, log := files.sourcesLog (options.paths.map Path.ofText) } := by
      simp only [t, tally, List.isEmpty_iff.1 nothing, List.foldl_nil]
    refine ⟨files.sourcesLog (options.paths.map Path.ofText) ++ [.nothingToDo], ?_⟩
    rw [start]
    exact if_pos nothing
  · by_cases idle : t.analysed = 0
    · refine ⟨t.log, ?_⟩
      rw [if_pos idle, if_pos idle]
      exact (if_neg nothing).trans (if_pos idle)
    · refine ⟨t.log ++ [.summary t.analysed t.findings.length], ?_⟩
      rw [if_neg idle, if_neg idle]
      exact (if_neg nothing).trans (if_neg idle)

/-- What is to be printed about some findings, each with the path of its file: a line for each, or a
JSON document that lists them. -/
def Printed (json : Bool) (findings : List (Path × Finding)) (output : String) : Prop :=
  let message (f : Finding) : String :=
    "Null-check of parameter " ++
      String.intercalate ", " (f.params.map fun name => "'" ++ name ++ "'") ++
      " is redundant; the branch " ++ (if f.value then "always" else "never") ++ " runs."
  if json then
    JsonValue.Spells
      (.list (findings.map fun (p, f) => .object
        [("kind", .text "redundant_null_check"), ("line", .nat f.line), ("col", .nat f.column),
          ("message", .text (message f)), ("is_inverted", .bool f.value),
          ("parameters", .list (f.params.map .text)), ("path", .text p.text)]))
      output.toList
  else
    output = String.join (findings.map fun (p, f) =>
      p.text ++ ":" ++ toString f.line ++ ":" ++ toString f.column ++ ": redundant_null_check: " ++
        message f ++ "\n")

theorem Tally.printed_report (t : Tally) (json : Bool) :
    Printed json t.findings (t.report json) := by
  cases json with
  | true =>
    have spelled := JsonValue.Spells.padded List.all_nil
      (show ['\n'].all JsonValue.isBlank = true by decide)
      (JsonValue.spells_render 0 (.list (t.findings.map fun (p, f) => f.toJson p.text)))
    rw [List.nil_append] at spelled
    rw [Printed, if_pos rfl, report, if_pos rfl, String.toList_append]
    exact spelled
  | false =>
    rw [Printed, if_neg Bool.false_ne_true, report, if_neg Bool.false_ne_true, lines, List.map_map]
    refine congrArg String.join (List.map_congr_left fun (p, f) _ => ?_)
    have title : ": redundant_null_check: " = ": " ++ Finding.kind ++ ": " := by decide
    change f.reportLine p.text ++ "\n" = p.text ++ ":" ++ toString f.line ++ ":" ++ toString f.column ++
      ": redundant_null_check: " ++ f.message ++ "\n"
    rw [title, Finding.reportLine]
    simp only [← String.append_assoc]
    rfl

/-- Sources below the working directory, one of them unreadable, with a directory named like a source; a
source elsewhere that cannot be written; and a file that is no source. -/
def mixedFiles : FileTree where
  files :=
    [(["home", "src", "a.java"], checkedOnce), (["home", "src", "hidden.java"], checkedOnce),
      (["home", "main.java"], unchecked), (["home", "notes.txt"], checkedOnce),
      (["opt", "shared.java"], checkedOnce)]
  directories := [["home", "src", "old.java"]]
  here := ["home"]
  readFaults := [(["home", "src", "hidden.java"], { error := .denied })]
  writeFaults := [(["opt", "shared.java"], { error := .denied })]

def mixedPaths : List String := ["src", "gone.java", "../home/main.java", "/opt/shared.java"]

def checkedPath : Path := { parts := ["src", "a.java"] }

def hiddenPath : Path := { parts := ["src", "hidden.java"] }

def directoryPath : Path := { parts := ["src", "old.java"] }

def missingPath : Path := { parts := ["gone.java"] }

def settledPath : Path := { parts := ["..", "home", "main.java"] }

def lockedPath : Path := { start := .root, parts := ["opt", "shared.java"] }

def mixedSources : List Path :=
  [checkedPath, hiddenPath, directoryPath, missingPath, settledPath, lockedPath]

theorem sources_mixedFiles : mixedFiles.sources (mixedPaths.map Path.ofText) = mixedSources := by
  have paths : mixedPaths.map Path.ofText =
      [{ parts := ["src"] }, missingPath, settledPath, lockedPath] := rfl
  have directory : mixedFiles.directory? { parts := ["src"] } = some ["home", "src"] := rfl
  have below : (mixedFiles.javaBelow ["home", "src"]).map (Path.append { parts := ["src"] }) =
      [checkedPath, hiddenPath, directoryPath] := rfl
  have src : mixedFiles.sourcesOf { parts := ["src"] } = [checkedPath, hiddenPath, directoryPath] := by
    simp only [FileTree.sourcesOf, directory, below]
    exact List.mergeSort_of_pairwise (by decide +kernel)
  have others : [missingPath, settledPath, lockedPath].flatMap mixedFiles.sourcesOf =
      [missingPath, settledPath, lockedPath] := rfl
  rw [FileTree.sources, paths, List.flatMap_cons, src, others]
  rfl

theorem apart_mixedFiles : mixedSources.Pairwise mixedFiles.Apart := by
  have places : mixedSources.filterMap (fun p => (mixedFiles.locate p).toOption) =
      [["home", "src", "a.java"], ["home", "src", "hidden.java"], ["home", "src", "old.java"],
        ["home", "main.java"], ["opt", "shared.java"]] := rfl
  refine FileTree.pairwise_apart ?_
  rw [places]
  decide

theorem findings_unchecked (name : Option String) :
    (CompilationUnit.read checkedParser unchecked name).findings 30 = [] := by
  rw [CompilationUnit.findings_eq_checkAt?]
  with_unfolding_all rfl

theorem findings_checkedOnce (name : Option String) :
    (CompilationUnit.read checkedParser checkedOnce name).findings 30 =
      [⟨1, 18, ⟨17, 32⟩, false, ["o"]⟩] := by
  rw [CompilationUnit.findings_eq_checkAt?]
  with_unfolding_all rfl

theorem settled_of_unchecked (name : Option String) :
    Fixed.Settled checkedParser name 30 unchecked := by
  rw [Fixed.Settled, findings_unchecked]
  with_unfolding_all rfl

theorem repairs_of_checkedOnce (name : Option String) :
    let u := CompilationUnit.read checkedParser checkedOnce name
    u.repairs (u.findings 30) = [⟨⟨17, 32⟩, []⟩] := by
  intro u
  rw [findings_checkedOnce]
  with_unfolding_all rfl

theorem source_run_checkedOnce (name : Option String) :
    (Fixed.run checkedParser name 30 Fixed.defaultPasses checkedOnce).source = unchecked := by
  have some : ¬ Fixed.Settled checkedParser name 30 checkedOnce := by
    rw [Fixed.Settled, repairs_of_checkedOnce]
    exact List.cons_ne_nil _ _
  have repaired : (CompilationUnit.read checkedParser checkedOnce name).repaired 30 = unchecked := by
    rw [CompilationUnit.repaired, repairs_of_checkedOnce]
    exact applyAll_checkedOnce
  have first := Fixed.passes_of_not_settled checkedParser_regular some 15
  have second := Fixed.passes_of_settled (settled_of_unchecked name) 14
  simp only [repaired, second] at first
  exact (Fixed.source_run Fixed.defaultPasses checkedOnce).trans (congrArg Fixed.source first)

theorem source_run_unchecked (name : Option String) :
    (Fixed.run checkedParser name 30 Fixed.defaultPasses unchecked).source = unchecked :=
  (Fixed.run_of_settled (settled_of_unchecked name) (by decide)).1

/-- Without repairs all that can be read is dealt with. -/
theorem analyses_mixedFiles {options : Options} (unrepaired : options.fix = false) :
    mixedSources.filter (options.analyses checkedParser mixedFiles) =
      [checkedPath, settledPath, lockedPath] := by
  have writable : options.Writable checkedParser mixedFiles mixedSources :=
    fun p _ source _ changed => absurd (by rw [Options.repaired, unrepaired]; rfl) changed
  rw [writable.filter_analyses]
  rfl

/-- With repairs all that can be read and written. -/
theorem analyses_mixedFiles_of_fix {options : Options} (fix : options.fix = true)
    (limit : options.maxDepth = 30) :
    mixedSources.filter (options.analyses checkedParser mixedFiles) = [checkedPath, settledPath] := by
  have reads : mixedSources.map mixedFiles.readAt =
      [.ok checkedOnce, .error { error := .denied }, .error { error := .isADirectory },
        .error { error := .missing }, .ok unchecked, .ok checkedOnce] := rfl
  have faults : mixedSources.map mixedFiles.writeFault? =
      [none, none, none, none, none, some { error := .denied }] := rfl
  have changed : unchecked ≠ checkedOnce := by decide
  simp only [mixedSources, List.map_cons, List.map_nil, List.cons.injEq, and_true] at reads faults
  obtain ⟨checked, hidden, directory, missing, settled, locked⟩ := reads
  obtain ⟨checked', -, -, -, -, locked'⟩ := faults
  simp [mixedSources, Options.analyses, Options.repaired, fix, limit, source_run_checkedOnce,
    source_run_unchecked, checked, hidden, directory, missing, settled, locked, changed, checked',
    locked']

theorem findingsAt_mixedFiles :
    [checkedPath, settledPath, lockedPath].flatMap (findingsAt checkedParser 30 mixedFiles) =
      [(checkedPath, ⟨1, 18, ⟨17, 32⟩, false, ["o"]⟩),
        (lockedPath, ⟨1, 18, ⟨17, 32⟩, false, ["o"]⟩)] := by
  have files : [checkedPath, settledPath, lockedPath].map mixedFiles.file? =
      [some checkedOnce, some unchecked, some checkedOnce] := rfl
  simp only [List.map_cons, List.map_nil, List.cons.injEq, and_true] at files
  obtain ⟨checked, settled, locked⟩ := files
  simp [findingsAt, checked, settled, locked, findings_unchecked, findings_checkedOnce]

def thirty : Bound := ⟨30, by decide, by decide⟩

theorem words_thirty : [Setting.maxDepth thirty true].flatMap Setting.words = ["--max-depth=30"] := by
  decide

end NullGuard.CommandLine
