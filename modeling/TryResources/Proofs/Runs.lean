import TryResources.CommandLine
import TryResources.Proofs.Placement

/-!
# Runs of the program

The program prints its lines one by one, so it might stop in the middle. It does not: whatever can go
wrong goes wrong before the first line. Then it prints one message and nothing else, about the file of
options if something is wrong with that, or else about the listing: about its file, or about the first
method in it that is faulty. Filtering never fails, and ranges can always be shown. None of this
depends on how texts are read as documents.

* `Program.Prints`, `Prints.bind`: a program prints some lines of output and goes on.
* `Report.ShowsRange`, `Report.ShowsNode`, `Report.Shown`: the text of reports.
* `Invocation.Chosen`, `BadOptions`: what the file of options says, and what is wrong with it.
* `Invocation.Listed`, `BadListing`: the same for the listing.
* `Invocation.exists_shown`, `prints_ranges`, `prints_marks`: the parts of a program that do not fail.
* `Invocation.run_cases`: how both commands end.
* `Invocation.run_all_or_nothing`: what comes of an invocation.
-/

namespace TryResources

/-- The ranges that are ignored in a method of a listing. -/
structure MethodListing.Filtered (o : Options) (l : MethodListing) (m : Method)
    (ranges : List Range) : Prop where
  toMethod : l.toMethod = .ok m
  ignoredRanges : o.ignoredRanges m = .ok ranges

/-! ## Programs that do not stop -/

namespace Program

variable {α β γ : Type} {p : Program α} {f : α → Program β} {a : α} {b : β}
  {lines lines' : List String}

/-- A program prints lines of output and no message, and goes on with a value. -/
def Prints (p : Program α) (lines : List String) (a : α) : Prop :=
  p = ⟨lines.map .out, .ok a⟩

theorem prints_pure (a : α) : (pure a : Program α).Prints [] a := rfl

theorem prints_println (line : String) : (println line).Prints [line] () := rfl

theorem Prints.bind (h : p.Prints lines a) (h' : (f a).Prints lines' b) :
    (p >>= f).Prints (lines ++ lines') b := by
  rw [Prints] at h h' ⊢
  rw [h]
  show (⟨lines.map .out ++ (f a).events, (f a).result⟩ : Program β) = _
  rw [h', List.map_append]

/-- What is printed for each element stands one after the other. -/
theorem prints_forM {xs : List γ} {step : γ → Program PUnit} {blocks : List (List String)}
    (h : List.Forall₂ (fun x block => (step x).Prints block ⟨⟩) xs blocks) :
    (xs.forM step).Prints blocks.flatten ⟨⟩ := by
  induction h with
  | nil => exact prints_pure _
  | cons hx _ ih => exact hx.bind ih

theorem prints_forM_println (lines : List String) : (lines.forM println).Prints lines ⟨⟩ := by
  have h : (lines.forM println).Prints (lines.map ([·])).flatten ⟨⟩ :=
    prints_forM (List.forall₂_map_right_iff.2 (List.forall₂_same.2 fun line _ =>
      prints_println line))
  rwa [← List.flatMap_def, List.flatMap_singleton'] at h

end Program

/-! ## The text of reports -/

namespace Report

/-- A line that shows a range: its first and its last position, how many nodes it has and the nodes at
its ends. -/
def ShowsRange (m : Method) (r : Range) (line : String) : Prop :=
  ∃ first last, m.code.get? r.first = some first ∧ m.code.get? r.last = some last ∧
    line = String.join ["  #", toString r.first, "..=#", toString r.last, " (",
      toString (r.last - r.first + 1), " nodes, ", first.render m.labelName, " .. ",
      last.render m.labelName, ")"]

/-- A line that shows a node: a mark, which is a hyphen if a range contains the position and otherwise
blank, and the node, indented unless it is a label. -/
def ShowsNode (m : Method) (ranges : List Range) (p : Nat) (line : String) : Prop :=
  ∃ n, m.code.get? p = some n ∧
    line = String.join [if ∃ r ∈ ranges, r.first ≤ p ∧ p ≤ r.last then "- " else "  ",
      if n.kind = .labelMarker then "" else "    ", n.render m.labelName]

/-- What is shown of a method: its ranges, and its nodes with marks. -/
structure Shown where
  method : Method
  ranges : List Range
  listed : List String
  marked : List String

namespace Shown

/-- There is a line for each range, and a line for each node, in order. -/
structure Faithful (s : Shown) : Prop where
  listed : List.Forall₂ (ShowsRange s.method) s.ranges s.listed
  marked : List.Forall₂ (ShowsNode s.method s.ranges) (List.range s.method.code.size) s.marked

/-- The ranges under the name of the method, its descriptor and their number. -/
def summary (s : Shown) : List String :=
  String.join [s.method.name, s.method.desc, ": ", toString s.ranges.length, " ignored range(s)"] ::
    s.listed

/-- The nodes under the name of the method and its descriptor. -/
def annotation (s : Shown) : List String :=
  (s.method.name ++ s.method.desc) :: s.marked

end Shown

/-- The lines that a command prints for methods: their ranges, one method after the other, or their
nodes, with an empty line between two methods. -/
def lines : Command → List Shown → List String
  | .filter, shown => shown.flatMap Shown.summary
  | .annotate, shown => [""].intercalate (shown.map Shown.annotation)

/-- The line for a range, whose first and last node are written with some names. -/
def rangeText (text : LabelId → String) : Range × Node LabelId × Node LabelId → String
  | (r, first, last) =>
    "  " ++ r.render ++ " (" ++ toString r.count ++ " nodes, " ++ first.render text ++ " .. " ++
      last.render text ++ ")"

theorem rangeLine_eq_ok {m : Method} {r : Range} {first last : Node LabelId}
    (hfirst : m.code.get? r.first = some first) (hlast : m.code.get? r.last = some last) :
    rangeLine m r = .ok (rangeText m.labelName (r, first, last)) := by
  rw [rangeLine, Method.render, Method.render, Code.get, Code.get, hfirst, hlast]
  rfl

/-- A range inside a method has a node at each end. -/
theorem exists_ends {m : Method} {r : Range} (h : r.last < m.code.size) :
    ∃ first last, m.code.get? r.first = some first ∧ m.code.get? r.last = some last := by
  have hget {p : Nat} (hp : p < m.code.size) : ∃ n, m.code.get? p = some n :=
    Option.ne_none_iff_exists'.1 (mt (m.code.get?_eq_none_iff p).1 (Nat.not_le.2 hp))
  obtain ⟨first, hfirst⟩ := hget (Nat.lt_of_le_of_lt r.first_le_last h)
  obtain ⟨last, hlast⟩ := hget h
  exact ⟨first, last, hfirst, hlast⟩

/-- A range inside a method can be shown. -/
theorem exists_showsRange {m : Method} {r : Range} (h : r.last < m.code.size) :
    ∃ line, rangeLine m r = .ok line ∧ ShowsRange m r line := by
  obtain ⟨first, last, hfirst, hlast⟩ := exists_ends h
  refine ⟨_, rangeLine_eq_ok hfirst hlast, first, last, hfirst, hlast, ?_⟩
  rw [← String.toList_inj]
  simp [rangeText, Range.render, Range.count, Position.render]

theorem showsNode_nodeLine {m : Method} {n : Node LabelId} {p : Nat} (ranges : List Range)
    (hn : m.code.get? p = some n) : ShowsNode m ranges p (nodeLine m ranges n p) := by
  have hmark : ranges.any (·.contains p) = true ↔ ∃ r ∈ ranges, r.first ≤ p ∧ p ≤ r.last := by
    simp [Range.contains_iff]
  refine ⟨n, hn, ?_⟩
  rw [← String.toList_inj]
  unfold nodeLine mark
  by_cases hcovered : ∃ r ∈ ranges, r.first ≤ p ∧ p ≤ r.last
  · rw [if_pos (hmark.2 hcovered), if_pos hcovered]
    simp
  · rw [if_neg (mt hmark.1 hcovered), if_neg hcovered]
    simp

/-- The nodes of a method are shown, each with its mark. -/
theorem showsNode_nodeLines (m : Method) (ranges : List Range) :
    List.Forall₂ (ShowsNode m ranges) (List.range m.code.size) (nodeLines m ranges) := by
  have hpositions : List.range m.code.size = m.code.nodes.toList.zipIdx.map Prod.snd := by
    rw [List.zipIdx_map_snd, ← List.range_eq_range']
    rfl
  rw [hpositions, nodeLines, List.forall₂_map_left_iff, List.forall₂_map_right_iff,
    List.forall₂_same]
  rintro ⟨n, p⟩ hmem
  refine showsNode_nodeLine ranges ?_
  rw [Code.get?, ← Array.getElem?_toList]
  exact List.mem_zipIdx_iff_getElem?.1 hmem

end Report

namespace Invocation

/-! ## Files and what is wrong with them -/

/-- The options that the file of options holds; without such a file, they are the default. -/
inductive Chosen (reader : Reader) (files : Files) (i : Invocation) : Options → Prop
  | default : i.options = none → Chosen reader files i {}
  | given {path text : String} {o : Options} : i.options = some path →
      files.text path = .ok text → reader.options text = .ok o → Chosen reader files i o

/-- The file of options is unreadable or invalid, for some reason. -/
inductive BadOptions (reader : Reader) (files : Files) (i : Invocation) : String → Prop
  | unreadable {path : String} {fault : ReadFault} : i.options = some path →
      files.text path = .error fault → BadOptions reader files i (path ++ ": " ++ fault.message)
  | invalid {path text reason : String} : i.options = some path →
      files.text path = .ok text → reader.options text = .error reason →
      BadOptions reader files i (path ++ ": " ++ reason)

/-- The listing that its file holds. -/
def Listed (reader : Reader) (files : Files) (i : Invocation) (listing : Listing) : Prop :=
  ∃ text, files.text i.input = .ok text ∧ reader.listing text = .ok listing

/-- The listing is unreadable or invalid, or a method in it is the first that is faulty, for some
reason. -/
inductive BadListing (reader : Reader) (files : Files) (i : Invocation) : String → Prop
  | unreadable {fault : ReadFault} : files.text i.input = .error fault →
      BadListing reader files i ("I/O error: " ++ fault.message)
  | invalid {text reason : String} : files.text i.input = .ok text →
      reader.listing text = .error reason →
      BadListing reader files i ("Invalid listing: " ++ reason)
  | method {listing : Listing} {before after : List MethodListing} {l : MethodListing}
      {e : MethodError} : i.Listed reader files listing →
      listing.methods = before ++ l :: after → (∀ other ∈ before, ∃ m, other.toMethod = .ok m) →
      l.toMethod = .error e → BadListing reader files i e.message

variable {reader : Reader} {files : Files} {i : Invocation} {o : Options} {listing : Listing}
  {ms : List Method} {reason : String}

theorem optionsFile_eq_ok_iff :
    i.optionsFile reader files = .ok o ↔ i.Chosen reader files o := by
  constructor
  · intro h
    unfold optionsFile at h
    split at h
    · rename_i hnone
      cases h
      exact .default hnone
    · rename_i path hpath
      obtain ⟨text, htext, ho⟩ := bind_eq_ok_iff.1 h
      exact .given hpath (mapError_eq_ok_iff.1 htext) (mapError_eq_ok_iff.1 ho)
  · intro h
    unfold optionsFile
    cases h with
    | default hnone => rw [hnone]; rfl
    | given hpath htext ho =>
      rw [hpath]
      exact bind_eq_ok_iff.2 ⟨_, mapError_eq_ok_iff.2 htext, mapError_eq_ok_iff.2 ho⟩

theorem badOptions_iff :
    i.BadOptions reader files reason ↔ i.optionsFile reader files = .error reason := by
  constructor
  · intro h
    unfold optionsFile
    cases h with
    | unreadable hpath htext =>
      rw [hpath]
      exact bind_eq_error_iff.2 (.inl (mapError_eq_error_iff.2 ⟨_, htext, rfl⟩))
    | invalid hpath htext ho =>
      rw [hpath]
      exact bind_eq_error_iff.2
        (.inr ⟨_, mapError_eq_ok_iff.2 htext, mapError_eq_error_iff.2 ⟨_, ho, rfl⟩⟩)
  · intro h
    unfold optionsFile at h
    split at h
    · cases h
    · rename_i path hpath
      rcases bind_eq_error_iff.1 h with h | ⟨text, htext, h⟩
      · obtain ⟨fault, hfault, rfl⟩ := mapError_eq_error_iff.1 h
        exact .unreadable hpath hfault
      · obtain ⟨fault, hfault, rfl⟩ := mapError_eq_error_iff.1 h
        exact .invalid hpath (mapError_eq_ok_iff.1 htext) hfault

theorem openListing_eq_ok_iff : i.openListing reader files = .ok ms ↔
    ∃ listing, i.Listed reader files listing ∧
      List.Forall₂ (fun l m => l.toMethod = .ok m) listing.methods ms := by
  constructor
  · intro h
    obtain ⟨text, htext, h⟩ := bind_eq_ok_iff.1 h
    obtain ⟨listing, hlisting, h⟩ := bind_eq_ok_iff.1 h
    exact ⟨listing, ⟨text, mapError_eq_ok_iff.1 htext, mapError_eq_ok_iff.1 hlisting⟩,
      mapM_eq_ok_iff.1 (mapError_eq_ok_iff.1 h)⟩
  · rintro ⟨listing, ⟨text, htext, hlisting⟩, h⟩
    exact bind_eq_ok_iff.2 ⟨text, mapError_eq_ok_iff.2 htext, bind_eq_ok_iff.2
      ⟨listing, mapError_eq_ok_iff.2 hlisting, mapError_eq_ok_iff.2 (mapM_eq_ok_iff.2 h)⟩⟩

theorem badListing_iff : i.BadListing reader files reason ↔
    ∃ e, i.openListing reader files = .error e ∧ e.message = reason := by
  constructor
  · intro h
    cases h with
    | unreadable htext =>
      exact ⟨_, bind_eq_error_iff.2 (.inl (mapError_eq_error_iff.2 ⟨_, htext, rfl⟩)), rfl⟩
    | invalid htext hlisting =>
      exact ⟨_, bind_eq_error_iff.2 (.inr ⟨_, mapError_eq_ok_iff.2 htext,
        bind_eq_error_iff.2 (.inl (mapError_eq_error_iff.2 ⟨_, hlisting, rfl⟩))⟩), rfl⟩
    | @method listing before after l e hlisted hmethods hbefore hl =>
      obtain ⟨text, htext, hlisting⟩ := hlisted
      have hfirst : listing.toMethods = .error e :=
        mapM_eq_error_iff.2 ⟨before, l, after, hmethods, hbefore, hl⟩
      exact ⟨.method e, bind_eq_error_iff.2 (.inr ⟨text, mapError_eq_ok_iff.2 htext,
        bind_eq_error_iff.2 (.inr ⟨listing, mapError_eq_ok_iff.2 hlisting,
          mapError_eq_error_iff.2 ⟨e, hfirst, rfl⟩⟩)⟩), rfl⟩
  · rintro ⟨e, h, rfl⟩
    rcases bind_eq_error_iff.1 h with h | ⟨text, htext, h⟩
    · obtain ⟨fault, hfault, rfl⟩ := mapError_eq_error_iff.1 h
      exact .unreadable hfault
    rw [mapError_eq_ok_iff] at htext
    rcases bind_eq_error_iff.1 h with h | ⟨listing, hlisting, h⟩
    · obtain ⟨fault, hfault, rfl⟩ := mapError_eq_error_iff.1 h
      exact .invalid htext hfault
    · obtain ⟨error, herror, rfl⟩ := mapError_eq_error_iff.1 h
      obtain ⟨before, l, after, hmethods, hbefore, hl⟩ := mapM_eq_error_iff.1 herror
      exact .method ⟨text, htext, mapError_eq_ok_iff.1 hlisting⟩ hmethods hbefore hl

/-- Something is wrong with the file of options, or it says what options to go by. -/
theorem badOptions_or_chosen (reader : Reader) (files : Files) (i : Invocation) :
    (∃ reason, i.BadOptions reader files reason) ∨ ∃ o, i.Chosen reader files o := by
  simp only [badOptions_iff, ← optionsFile_eq_ok_iff]
  cases i.optionsFile reader files <;> simp

/-- Something is wrong with the listing, or it describes methods. -/
theorem badListing_or_listed (reader : Reader) (files : Files) (i : Invocation) :
    (∃ reason, i.BadListing reader files reason) ∨ ∃ listing ms,
      i.Listed reader files listing ∧
        List.Forall₂ (fun l m => l.toMethod = .ok m) listing.methods ms := by
  cases h : i.openListing reader files with
  | error e => exact .inl ⟨_, badListing_iff.2 ⟨e, h, rfl⟩⟩
  | ok ms =>
    obtain ⟨listing, hlisted, hms⟩ := openListing_eq_ok_iff.1 h
    exact .inr ⟨listing, ms, hlisted, hms⟩

/-! ## Programs that fail -/

/-- What is left by a program that prints one message and nothing else. -/
def refusal (reason : String) : Outcome :=
  ⟨1, [.err ("Error: " ++ reason)]⟩

theorem run_of_badOptions (h : i.BadOptions reader files reason) (command : Command) :
    ({ i with command } : Invocation).run reader files = refusal reason := by
  have hfile : ({ i with command } : Invocation).optionsFile reader files = .error reason :=
    (badOptions_iff (i := i)).1 h
  have hload : ({ i with command } : Invocation).loadOptions reader files = .error reason :=
    bind_eq_error_iff.2 (.inl hfile)
  rw [run, program, filterMethods, hload]
  rfl

theorem loadOptions_of_chosen (h : i.Chosen reader files o) (command : Command) :
    ({ i with command } : Invocation).loadOptions reader files = .ok (i.restrict o) := by
  have hfile : ({ i with command } : Invocation).optionsFile reader files = .ok o :=
    (optionsFile_eq_ok_iff (i := i)).2 h
  exact bind_eq_ok_iff.2 ⟨o, hfile, rfl⟩

theorem run_of_badListing (hchosen : i.Chosen reader files o)
    (h : i.BadListing reader files reason) (command : Command) :
    ({ i with command } : Invocation).run reader files = refusal reason := by
  obtain ⟨e, hopen, rfl⟩ := badListing_iff.1 h
  have hopen : ({ i with command } : Invocation).openListing reader files = .error e := hopen
  rw [run, program, filterMethods, loadOptions_of_chosen hchosen, hopen]
  rfl

/-! ## Programs that do not -/

open Program Report

/-- The summary of a method is what is printed line by line. -/
theorem prints_summary {m : Method} {ranges : List Range} {summary : List String}
    (h : Report.summary m ranges = .ok summary) : (printRanges m ranges).Prints summary () := by
  obtain ⟨listed, hlisted, h⟩ := bind_eq_ok_iff.1 h
  obtain rfl := Except.ok.inj h
  have hlines : (ranges.forM (printRange m)).Prints (listed.map ([·])).flatten () := by
    refine prints_forM (List.forall₂_map_right_iff.2 ?_)
    refine (mapM_eq_ok_iff.1 hlisted).imp fun r line hline => ?_
    rw [printRange, hline]
    exact prints_println line
  rw [← List.flatMap_def, List.flatMap_singleton'] at hlines
  exact (prints_println _).bind hlines

/-- A method can be filtered and shown in both ways, without a message. -/
theorem exists_shown_of_method (o : Options) (m : Method) : ∃ s : Shown, s.method = m ∧
    o.ignoredRanges m = .ok s.ranges ∧ s.Faithful ∧
    (filterMethod o m).Prints [] (m, s.ranges) ∧
    (printRanges m s.ranges).Prints s.summary () ∧
    (printMarks m s.ranges).Prints s.annotation () := by
  obtain ⟨ranges, hranges, hlast⟩ := exists_ignoredRanges o m
  obtain ⟨listed, hlisted⟩ := exists_forall₂ fun r hr => exists_showsRange (hlast r hr)
  have hfilter : (filterMethod o m).Prints [] (m, ranges) := by
    rw [filterMethod, hranges]
    exact prints_pure _
  have hsummary : Report.summary m ranges = .ok (heading m ranges :: listed) :=
    bind_eq_ok_iff.2 ⟨listed, mapM_eq_ok_iff.2 (hlisted.imp fun _ _ hline => hline.1), rfl⟩
  refine ⟨⟨m, ranges, listed, nodeLines m ranges⟩, rfl, hranges, ⟨?_, ?_⟩, hfilter, ?_, ?_⟩
  · exact hlisted.imp fun _ _ hline => hline.2
  · exact showsNode_nodeLines m ranges
  · have hheading : heading m ranges = String.join
        [m.name, m.desc, ": ", toString ranges.length, " ignored range(s)"] := by
      rw [← String.toList_inj]
      simp [heading, Method.signature]
    rw [Shown.summary, ← hheading]
    exact prints_summary hsummary
  · exact (prints_println _).bind (prints_forM_println _)

/-- The methods of a listing can be filtered and shown. -/
theorem exists_shown (o : Options) {ls : List MethodListing}
    (h : List.Forall₂ (fun l m => l.toMethod = .ok m) ls ms) :
    ∃ shown : List Shown,
      List.Forall₂ (fun l s => MethodListing.Filtered o l s.method s.ranges) ls shown ∧
      (ms.mapM (filterMethod o)).Prints [] (shown.map fun s => (s.method, s.ranges)) ∧
      ∀ s ∈ shown, s.Faithful ∧ (printRanges s.method s.ranges).Prints s.summary () ∧
        (printMarks s.method s.ranges).Prints s.annotation () := by
  induction h with
  | nil => exact ⟨[], .nil, prints_pure _, by simp⟩
  | @cons l m ls ms hl _ ih =>
    obtain ⟨shown, hfiltered, hmethods, hprints⟩ := ih
    obtain ⟨s, rfl, hranges, hfaithful, hmethod, hlist, hmark⟩ := exists_shown_of_method o m
    refine ⟨s :: shown, .cons ⟨hl, hranges⟩ hfiltered, ?_,
      List.forall_mem_cons.2 ⟨⟨hfaithful, hlist, hmark⟩, hprints⟩⟩
    rw [List.mapM_cons]
    exact hmethod.bind (hmethods.bind (prints_pure _))

theorem prints_ranges {shown : List Shown}
    (h : ∀ s ∈ shown, (printRanges s.method s.ranges).Prints s.summary ()) :
    ((shown.map fun s : Shown => (s.method, s.ranges)).forM fun (m, ranges) =>
      printRanges m ranges).Prints (lines .filter shown) () := by
  rw [lines, List.flatMap_def]
  refine prints_forM (List.forall₂_map_left_iff.2 (List.forall₂_map_right_iff.2 ?_))
  exact List.forall₂_same.2 h

/-- Methods are set apart by an empty line, except for the first. -/
theorem prints_marks {shown : List Shown}
    (h : ∀ s ∈ shown, (printMarks s.method s.ranges).Prints s.annotation ()) :
    (printAllMarks true (shown.map fun s => (s.method, s.ranges))).Prints
      (lines .annotate shown) () := by
  -- behind the first method, each one has an empty line in front
  have hrest : ∀ shown : List Shown,
      (∀ s ∈ shown, (printMarks s.method s.ranges).Prints s.annotation ()) →
      (printAllMarks false (shown.map fun s => (s.method, s.ranges))).Prints
        (shown.flatMap fun s => "" :: s.annotation) () := by
    intro shown h
    induction shown with
    | nil => exact prints_pure _
    | cons s shown ih =>
      obtain ⟨hs, hshown⟩ := List.forall_mem_cons.1 h
      exact (prints_println "").bind (hs.bind (ih hshown))
  have hlines : ∀ (s : Shown) (shown : List Shown), lines .annotate (s :: shown) =
      s.annotation ++ shown.flatMap fun s => "" :: s.annotation := by
    intro s shown
    induction shown generalizing s with
    | nil => simp [lines]
    | cons s' shown ih =>
      have hnext := ih s'
      simp only [lines, List.map_cons] at hnext ⊢
      rw [List.intercalate_cons_cons, hnext, List.append_assoc]
      rfl
  cases shown with
  | nil => exact prints_pure _
  | cons s shown =>
    obtain ⟨hs, hshown⟩ := List.forall_mem_cons.1 h
    rw [hlines]
    exact hs.bind (hrest shown hshown)

/-- If nothing is wrong with the files, all methods are filtered and printed, whichever command is
given. -/
theorem exists_run (hchosen : i.Chosen reader files o) (hlisted : i.Listed reader files listing)
    (h : List.Forall₂ (fun l m => l.toMethod = .ok m) listing.methods ms) :
    ∃ shown : List Shown,
      List.Forall₂ (fun l s => MethodListing.Filtered (i.restrict o) l s.method s.ranges)
        listing.methods shown ∧ (∀ s ∈ shown, s.Faithful) ∧
      ∀ command, ({ i with command } : Invocation).run reader files =
        ⟨0, (lines command shown).map .out⟩ := by
  obtain ⟨shown, hfiltered, hmethods, hprints⟩ := exists_shown (i.restrict o) h
  have hload : i.loadOptions reader files = .ok (i.restrict o) :=
    loadOptions_of_chosen hchosen i.command
  have hopen := openListing_eq_ok_iff.2 ⟨listing, hlisted, h⟩
  have hfilter : (i.filterMethods reader files).Prints []
      (shown.map fun s => (s.method, s.ranges)) := by
    rw [filterMethods, hload, hopen]
    exact (prints_pure _).bind ((prints_pure _).bind hmethods)
  refine ⟨shown, hfiltered, fun s hs => (hprints s hs).1, fun command => ?_⟩
  have hprogram : (({ i with command } : Invocation).program reader files).Prints
      (lines command shown) () := by
    show Prints _ ([] ++ lines command shown) ()
    refine hfilter.bind ?_
    cases command with
    | filter => exact prints_ranges fun s hs => (hprints s hs).2.1
    | annotate => exact prints_marks fun s hs => (hprints s hs).2.2
  rw [run, hprogram]
  rfl

/-- Both commands print one and the same message, or each prints its lines for the same methods with
the same ranges. -/
theorem run_cases (reader : Reader) (files : Files) (i : Invocation) :
    (∃ reason, (i.BadOptions reader files reason ∨ i.BadListing reader files reason) ∧
      ∀ command, ({ i with command } : Invocation).run reader files = refusal reason) ∨
    ∃ o listing shown, i.Chosen reader files o ∧ i.Listed reader files listing ∧
      List.Forall₂ (fun l s => MethodListing.Filtered (i.restrict o) l s.method s.ranges)
        listing.methods shown ∧ (∀ s ∈ shown, s.Faithful) ∧
      ∀ command, ({ i with command } : Invocation).run reader files =
        ⟨0, (lines command shown).map .out⟩ := by
  obtain ⟨reason, h⟩ | ⟨o, ho⟩ := i.badOptions_or_chosen reader files
  · exact .inl ⟨reason, .inl h, run_of_badOptions h⟩
  obtain ⟨reason, h⟩ | ⟨listing, ms, hlisted, hms⟩ := i.badListing_or_listed reader files
  · exact .inl ⟨reason, .inr h, run_of_badListing ho h⟩
  obtain ⟨shown, hfiltered, hfaithful, hrun⟩ := exists_run ho hlisted hms
  exact .inr ⟨o, listing, shown, ho, hlisted, hfiltered, hfaithful, hrun⟩

/-- **All or nothing.** Whatever the files of an invocation hold, and however texts are read as
documents,

1. if the file of options is unreadable or invalid, a message that says so is all that is printed,
   whatever the listing is like;
2. otherwise, if the listing is unreadable or invalid, or a method in it is the first that is faulty, a
   message that says so is all that is printed, whatever methods there are in front;
3. otherwise the program ends with `0` and prints no message; it prints the complete report on every
   method, in the order of the listing, with the ranges that the options ask for;
4. it ends with `1` if and only if one of the first two is the case, and with `0` otherwise. -/
theorem run_all_or_nothing (reader : Reader) (files : Files) (i : Invocation) :
    let outcome := i.run reader files
    (∀ reason, i.BadOptions reader files reason →
      outcome = ⟨1, [.err ("Error: " ++ reason)]⟩) ∧
    (∀ reason, (∀ other, ¬ i.BadOptions reader files other) → i.BadListing reader files reason →
      outcome = ⟨1, [.err ("Error: " ++ reason)]⟩) ∧
    ((∀ reason, ¬ i.BadOptions reader files reason) →
      (∀ reason, ¬ i.BadListing reader files reason) →
      ∃ o listing shown, i.Chosen reader files o ∧ i.Listed reader files listing ∧
        List.Forall₂ (fun l s => MethodListing.Filtered (i.restrict o) l s.method s.ranges)
          listing.methods shown ∧ (∀ s ∈ shown, s.Faithful) ∧
        outcome = ⟨0, (lines i.command shown).map .out⟩) ∧
    (outcome.exitCode = 1 ↔
      ∃ reason, i.BadOptions reader files reason ∨ i.BadListing reader files reason) ∧
    (outcome.exitCode = 0 ∨ outcome.exitCode = 1) := by
  intro outcome
  refine ⟨fun reason h => run_of_badOptions h i.command, ?_, ?_, ?_⟩
  · intro reason hnone h
    obtain ⟨other, hother⟩ | ⟨o, ho⟩ := i.badOptions_or_chosen reader files
    · exact absurd hother (hnone other)
    · exact run_of_badListing ho h i.command
  · intro hnone hnone'
    obtain ⟨reason, hbad, -⟩ | ⟨o, listing, shown, ho, hlisted, hfiltered, hfaithful, hrun⟩ :=
      i.run_cases reader files
    · exact absurd hbad (not_or.2 ⟨hnone reason, hnone' reason⟩)
    · exact ⟨o, listing, shown, ho, hlisted, hfiltered, hfaithful, hrun i.command⟩
  · obtain ⟨reason, hbad, hrun⟩ | ⟨o, listing, shown, ho, hlisted, hfiltered, -, hrun⟩ :=
      i.run_cases reader files
    · have hone : outcome.exitCode = 1 := congrArg Outcome.exitCode (hrun i.command)
      exact ⟨iff_of_true hone ⟨reason, hbad⟩, .inr hone⟩
    · have hzero : outcome.exitCode = 0 := congrArg Outcome.exitCode (hrun i.command)
      have hgood : ¬ ∃ reason,
          i.BadOptions reader files reason ∨ i.BadListing reader files reason := by
        rintro ⟨reason, hbad | hbad⟩
        · cases hzero.symm.trans (congrArg Outcome.exitCode (run_of_badOptions hbad i.command))
        · cases hzero.symm.trans (congrArg Outcome.exitCode (run_of_badListing ho hbad i.command))
      exact ⟨iff_of_false (by rw [hzero]; exact Nat.zero_ne_one) hgood, .inl hzero⟩

/-- A method that is sound and one that is faulty. -/
def sound : MethodListing where
  name := "sound"
  code := ["here:", "return"]

def faulty : MethodListing where
  name := "faulty"
  code := ["return", "bogus"]

theorem run_all_or_nothing_faulty :
    let i : Invocation := { command := .annotate, input := "l", options := some "o" }
    let reader (ls : List MethodListing) : Reader := ⟨fun _ => .ok {}, fun _ => .ok ⟨ls⟩⟩
    let files : Files := fun _ => .ok ByteArray.empty
    let noOptions : Files := fun path => if path = "o" then .error .notFound else files path
    i.run (reader [sound, faulty]) files = ⟨1, [.err "Error: Unknown opcode: bogus"]⟩ ∧
      i.run (reader [sound, faulty]) noOptions =
        ⟨1, [.err "Error: o: No such file or directory (os error 2)"]⟩ ∧
      (∃ shown : List Shown, (∀ s ∈ shown, s.Faithful) ∧
        i.run (reader [sound, sound]) files = ⟨0, (lines .annotate shown).map .out⟩) ∧
      i.run (reader [sound, sound]) files = ⟨0, [.out "sound()V", .out "  here:",
        .out "      return", .out "", .out "sound()V", .out "  here:", .out "      return"]⟩ := by
  intro i reader files noOptions
  have hempty : Files.text (fun _ => .ok ByteArray.empty) "" = .ok "" := by decide +kernel
  have htext (path : String) : files.text path = .ok "" := hempty
  have hchosen (ls : List MethodListing) : ∀ reason, ¬ i.BadOptions (reader ls) files reason := by
    rintro reason (⟨-, h⟩ | ⟨-, -, h⟩)
    · cases (htext _).symm.trans h
    · cases h
  have hsound : sound.toMethod =
      .ok ⟨"sound", "()V", .ofList [.label ⟨0⟩, .insn ⟨.returnVoid, .none⟩], [], ["here"]⟩ := by
    decide +kernel
  refine ⟨?_, ?_, ?_, by decide +kernel⟩
  · obtain ⟨-, hlisting, -⟩ := i.run_all_or_nothing (reader [sound, faulty]) files
    have hmethods : [sound, faulty] = [sound] ++ faulty :: [] := rfl
    have hfaulty : faulty.toMethod = .error (.unknownOpcode "bogus") := by decide +kernel
    refine hlisting (MethodError.unknownOpcode "bogus").message (hchosen _) ?_
    refine .method ⟨"", htext _, rfl⟩ hmethods ?_ hfaulty
    exact List.forall_mem_singleton.2 ⟨_, hsound⟩
  · obtain ⟨hoptions, -⟩ := i.run_all_or_nothing (reader [sound, faulty]) noOptions
    have hnone : noOptions.text "o" = .error .notFound := by decide +kernel
    exact hoptions ("o" ++ ": " ++ ReadFault.notFound.message) (.unreadable rfl hnone)
  · obtain ⟨-, -, hreport, -⟩ := i.run_all_or_nothing (reader [sound, sound]) files
    have hgood : ∀ reason, ¬ i.BadListing (reader [sound, sound]) files reason := by
      intro reason h
      have hlisted : i.Listed (reader [sound, sound]) files ⟨[sound, sound]⟩ := ⟨"", htext _, rfl⟩
      have hok := openListing_eq_ok_iff.2 ⟨_, hlisted, .cons hsound (.cons hsound .nil)⟩
      obtain ⟨e, herror, -⟩ := badListing_iff.1 h
      cases hok.symm.trans herror
    obtain ⟨-, -, shown, -, -, -, hfaithful, hrun⟩ := hreport (hchosen _) hgood
    exact ⟨shown, hfaithful, hrun⟩

end Invocation

end TryResources
