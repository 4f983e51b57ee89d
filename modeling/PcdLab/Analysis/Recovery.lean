import PcdLab.Analysis.Summary

/-! # The recovery times

`fault_injection.sh` writes the recovery time of a policy into a file, and two programs read it:
`fig_fault_recovery` of `plot_results.py`, and `load_fault_data` of `plot_paper_figures.py`, from
which its own `fig_fault_recovery` takes the heights of the bars.
-/

namespace PcdLab.Analysis.Recovery

open Lib Analysis.Summary Experiments.Suite

/-! ## The readers -/

/-- The time in the file of a policy, if there is a file. -/
def recoveryTime (dir : Dir) (policy : String) : Except Failure (Option Json) :=
  match dir (faultFile policy) with
  | none => .ok none
  | some text => do
      let data ← load text
      return some (← raise (get data "recovery_time_s" zero))

def addTime (dir : Dir) (times : List (String × Json)) (policy : String) :
    Except Failure (List (String × Json)) := do
  match ← recoveryTime dir policy with
  | none => return times
  | some v => return times ++ [(policy, v)]

/-- The loop over the policies, which both programs have. -/
def recoveryTimes (dir : Dir) : Except Failure (List (String × Json)) :=
  policies.foldlM (addTime dir) []

/-- `fig_fault_recovery` of `plot_results.py`: the labels and the heights of the bars, or nothing
    when there is no file. -/
def figFaultRecovery (dir : Dir) : Except Failure (Option (List String × List Json)) := do
  let times ← recoveryTimes dir
  if times.isEmpty then return none
  else
    let labels := (policies.filter fun p => (times.lookup p).isSome).map label
    return some (labels, policies.filterMap fun p => times.lookup p)

/-- `load_fault_data` of `plot_paper_figures.py`. -/
def loadFaultData (dir : Dir) : Except Failure (List (String × Json)) := recoveryTimes dir

/-- The heights of the bars in `fig_fault_recovery` of `plot_paper_figures.py`. -/
def paperBars (faultData : List (String × Json)) : List Json :=
  policies.map fun p => (faultData.lookup p).getD zero

/-! ## Decoding the file -/

/-- `K6_OUT`. -/
def k6Output (setup : Setup) (policy : String) : List Char :=
  setup.resultsDir ++ '/' :: (k6FaultFile policy).toList

def faultDict (setup : Setup) (policy : String) (deletionTs recoveryTime : Int) : Json :=
  .obj [(Json.text "policy", .str (policy.toList.map Char.toNat)),
    (Json.text "deletion_ts", .num (.rat deletionTs)),
    (Json.text "recovery_time_s", .num (.rat recoveryTime)),
    (Json.text "k6_output", .str ((k6Output setup policy).map Char.toNat))]

/-- The file up to the path. -/
def faultTimes (policy : String) (deletionTs recoveryTime : Int) : List Char :=
  "\x7b\n  \"policy\": \"".toList ++ (policy.toList ++
    ("\",\n  \"deletion_ts\": ".toList ++ (Json.printed deletionTs ++
      (",\n  \"recovery_time_s\": ".toList ++ (Json.printed recoveryTime ++
        (",\n  \"k6_output\": \"".toList ++ []))))))

theorem faultText_split (setup : Setup) (policy : String) (deletionTs recoveryTime : Int) :
    setup.faultText policy deletionTs recoveryTime =
      (faultTimes policy deletionTs recoveryTime ++
        (k6Output setup policy ++ "\"\n".toList)) ++ ['\x7d', '\n'] := by
  unfold Setup.faultText faultTimes k6Output
  simp only [List.append_assoc, List.nil_append]
  rfl

section File

variable {policy : String} (known : policy ∈ policies) (deletionTs recoveryTime : Int)

include known

theorem run_faultTimes : Json.run Json.start (faultTimes policy deletionTs recoveryTime) =
    some ⟨[.member [(Json.text "recovery_time_s", .num (.rat recoveryTime)),
      (Json.text "deletion_ts", .num (.rat deletionTs)),
      (Json.text "policy", .str (policy.toList.map Char.toNat))] (Json.text "k6_output")],
        .string false []⟩ := by
  have plain := plain_names.1 policy known
  have opening : Json.run Json.start "\x7b\n  \"policy\": \"".toList =
      some ⟨[.member [] (Json.text "policy")], .string false []⟩ := rfl
  have deleted : ∀ read, Json.run ⟨[.member [] (Json.text "policy")], .string false read⟩
      "\",\n  \"deletion_ts\": ".toList =
      some ⟨[.member [(Json.text "policy", .str (Json.joinSurrogates read.reverse))]
        (Json.text "deletion_ts")], .value⟩ := fun read => rfl
  have recovered : ∀ before v, Json.run
      ⟨[.obj ((Json.text "deletion_ts", v) :: before)], .afterElement⟩
      ",\n  \"recovery_time_s\": ".toList =
      some ⟨[.member ((Json.text "deletion_ts", v) :: before) (Json.text "recovery_time_s")],
        .value⟩ := fun before v => rfl
  have stored : ∀ before v, Json.run
      ⟨[.obj ((Json.text "recovery_time_s", v) :: before)], .afterElement⟩
      ",\n  \"k6_output\": \"".toList =
      some ⟨[.member ((Json.text "recovery_time_s", v) :: before) (Json.text "k6_output")],
        .string false []⟩ := fun before v => rfl
  unfold faultTimes
  rw [Json.run_part opening,
    Json.run_string_part (t := fun s => ⟨[.member [(Json.text "policy", .str s)]
      (Json.text "deletion_ts")], .value⟩) (List.all_eq_true.mp plain) deleted,
    Json.run_value_part (fun c => Json.printed_chars) (Json.printed_ne_nil _) rfl
      (.inr (by decide)) (recovered _), Json.atom_printed, Option.bind_some,
    Json.run_value_part (fun c => Json.printed_chars) (Json.printed_ne_nil _) rfl
      (.inr (by decide)) (stored _), Json.atom_printed, Option.bind_some]
  rfl

theorem unfinished_faultTimes :
    Json.Unfinished Json.start (faultTimes policy deletionTs recoveryTime) := by
  have name := open_names.1 policy known
  have digits : ∀ z, (Json.printed z).countP Json.isCloser = 0 := fun z =>
    List.countP_eq_zero.mpr fun c member => Json.atomChar_closer (Json.printed_chars member)
  have literals : "\x7b\n  \"policy\": \"".toList.countP Json.isCloser = 0 ∧
      "\",\n  \"deletion_ts\": ".toList.countP Json.isCloser = 0 ∧
      ",\n  \"recovery_time_s\": ".toList.countP Json.isCloser = 0 ∧
      ",\n  \"k6_output\": \"".toList.countP Json.isCloser = 0 := by
    decide
  unfold faultTimes
  apply Json.unfinished_object
  · rfl
  · simp only [List.countP_append, name, digits, literals, List.countP_nil]

variable {setup : Setup} (path_plain : setup.resultsDir.all Json.isPlain)

include path_plain

theorem k6Output_plain : ∀ c ∈ k6Output setup policy, Json.isPlain c := by
  have names : ∀ p ∈ policies, ('/' :: (k6FaultFile p).toList).all Json.isPlain := by
    decide +kernel
  intro c member
  rcases List.mem_append.mp member with dir | name
  · exact List.all_eq_true.mp path_plain c dir
  · exact List.all_eq_true.mp (names policy known) c name

/-- The file is what was put into it, if the path of the directory can stand in a string. -/
theorem loads_faultText : Json.loads (setup.faultText policy deletionTs recoveryTime) =
    some (faultDict setup policy deletionTs recoveryTime) := by
  have closing : ∀ before read, Json.run
      ⟨[.member before (Json.text "k6_output")], .string false read⟩ "\"\n\x7d\n".toList =
      some ⟨[], .done (.obj ((Json.text "k6_output",
        .str (Json.joinSurrogates read.reverse)) :: before).reverse)⟩ := fun before read => rfl
  have closed : ("\"\n".toList ++ ['\x7d', '\n']) = "\"\n\x7d\n".toList ++ [] := rfl
  unfold Json.loads
  rw [faultText_split, List.append_assoc, Json.run_part (run_faultTimes known _ _),
    List.append_assoc, closed,
    Json.run_string_part (t := fun s => ⟨[], .done (.obj (((Json.text "k6_output", .str s) :: _)
      ).reverse)⟩) (k6Output_plain known path_plain) (closing _)]
  rfl

/-- A file which lacks more than its line end has nothing. -/
theorem loads_faultText_cut (missing : Nat) :
    Json.loads ((setup.faultText policy deletionTs recoveryTime).rdrop missing) =
      if missing ≤ 1 then some (faultDict setup policy deletionTs recoveryTime) else none := by
  have unfinished : Json.Unfinished Json.start (faultTimes policy deletionTs recoveryTime ++
      (k6Output setup policy ++ "\"\n".toList)) := by
    apply (unfinished_faultTimes known _ _).append
    intro t ran
    cases ran.symm.trans (run_faultTimes known _ _)
    have plain := k6Output_plain known path_plain
    apply (Json.unfinished_string plain _ _ _).append
    intro t ran
    rw [← List.append_nil (k6Output setup policy), Json.run_string plain] at ran
    cases ran
    have quoted : "\"\n".toList.countP Json.isCloser = 0 := by decide
    exact Json.unfinished_of_few (quoted ▸ Nat.one_pos)
  rw [faultText_split, Json.loads_cut unfinished, ← faultText_split,
    loads_faultText known deletionTs recoveryTime path_plain]

end File

/-! ## What is read behind any sequence of runs -/

/-- The time between the deletion and the recovery which were recorded last. -/
def lastTime (events : List Event) (policy : String) : Option Json :=
  (lastRecorded events policy).map fun r => .num (.rat (r.recoveryEnd - r.deletionTs : Int))

/-- The file of the policy lacks more than its line end. -/
def isTorn (events : List Event) (policy : String) : Bool :=
  (lastRecorded events policy).any fun r => 1 < r.missing

section

variable {setup : Setup} (path_plain : setup.resultsDir.all Json.isPlain) (events : List Event)

include path_plain

theorem recoveryTime_runs {policy : String} (known : policy ∈ policies) :
    recoveryTime (runs setup Files.empty events) policy =
      if isTorn events policy then .error .notJson else .ok (lastTime events policy) := by
  rw [recoveryTime, runs_faultFile setup _ _ known, lastTime, isTorn]
  cases lastRecorded events policy with
  | none => rfl
  | some r =>
      simp only [Option.map_some, Option.some_or, load, Setup.recordedText,
        loads_faultText_cut known _ _ path_plain, Option.any_some, decide_eq_true_eq]
      by_cases torn : 1 < r.missing
      · rw [if_neg (Nat.not_le.mpr torn), if_pos torn]
        rfl
      · rw [if_pos (Nat.not_lt.mp torn), if_neg torn]
        rfl

theorem addTime_runs {rest : List String} (known : ∀ p ∈ rest, p ∈ policies)
    (times : List (String × Json)) :
    rest.foldlM (addTime (runs setup Files.empty events)) times =
      if rest.any (isTorn events) then .error .notJson
      else .ok (times ++ rest.filterMap fun p => (lastTime events p).map fun v => (p, v)) := by
  induction rest generalizing times with
  | nil =>
      rw [List.filterMap_nil, List.append_nil]
      rfl
  | cons p rest ih =>
      obtain ⟨here, later⟩ := List.forall_mem_cons.mp known
      rw [List.foldlM_cons, addTime, recoveryTime_runs path_plain events here, List.any_cons,
        List.filterMap_cons]
      cases isTorn events p with
      | true => rfl
      | false =>
          cases lastTime events p with
          | none => exact ih later times
          | some v =>
              rw [Option.map_some, List.append_cons]
              exact ih later (times ++ [(p, v)])

theorem recoveryTimes_runs : recoveryTimes (runs setup Files.empty events) =
    if policies.any (isTorn events) then .error .notJson
    else .ok (policies.filterMap fun p => (lastTime events p).map fun v => (p, v)) :=
  addTime_runs path_plain events (fun _ known => known) []

end

/-- Looked up in a list that has been made from a table, a key has the value of the table. -/
theorem lookup_table (table : String → Option Json) (keys : List String) (key : String) :
    (keys.filterMap fun k => (table k).map fun v => (k, v)).lookup key =
      if key ∈ keys then table key else none := by
  induction keys with
  | nil => rfl
  | cons k keys ih =>
      rw [List.filterMap_cons]
      by_cases same : key = k
      · subst same
        cases found : table key with
        | none => simp [ih, found]
        | some v => simp
      · cases found : table k with
        | none => simp [ih, same]
        | some v =>
            rw [Option.map_some, List.lookup_cons, beq_eq_false_iff_ne.mpr same]
            simp [ih, same]

theorem lookup_times (events : List Event) {policy : String} (known : policy ∈ policies) :
    (policies.filterMap fun p => (lastTime events p).map fun v => (p, v)).lookup policy =
      lastTime events policy := by
  rw [lookup_table, if_pos known]

/-- Behind any sequence of runs, failed ones included, `plot_results.py` shows a bar for each
    policy with a recorded recovery, and `plot_paper_figures.py` one for every policy. The
    height is the time from the deletion to the end of the loop of the last run that was recorded;
    without one it is zero. Both fail when one of the files lacks more than its line end. -/
theorem recovery_charts_show_last_times (setup : Setup)
    (path_plain : setup.resultsDir.all Json.isPlain) (events : List Event) :
    if policies.any (isTorn events) then
      figFaultRecovery (runs setup Files.empty events) = .error .notJson ∧
        loadFaultData (runs setup Files.empty events) = .error .notJson
    else
      figFaultRecovery (runs setup Files.empty events) =
        .ok (if policies.all fun p => (lastTime events p).isNone then none
          else some ((policies.filter fun p => (lastTime events p).isSome).map label,
            policies.filterMap (lastTime events))) ∧
      ∃ data, loadFaultData (runs setup Files.empty events) = .ok data ∧
        paperBars data = policies.map fun p => (lastTime events p).getD zero := by
  have read := recoveryTimes_runs path_plain events
  split
  · rename_i torn
    rw [if_pos torn] at read
    exact ⟨by rw [figFaultRecovery, read]; rfl, read⟩
  · rename_i whole
    rw [if_neg whole] at read
    refine ⟨?_, _, read, ?_⟩
    · have empty : (policies.filterMap fun p => (lastTime events p).map fun v => (p, v)).isEmpty =
          policies.all fun p => (lastTime events p).isNone := by
        rw [Bool.eq_iff_iff]
        simp [List.filterMap_eq_nil_iff]
      have labels := List.filter_congr fun p (known : p ∈ policies) =>
        congrArg Option.isSome (lookup_times events known)
      have bars := List.filterMap_congr fun p (known : p ∈ policies) => lookup_times events known
      rw [figFaultRecovery, read]
      simp only [bind, Except.bind, empty, labels, bars]
      split <;> rfl
    · rw [paperBars]
      exact List.map_congr_left fun p known => by rw [lookup_times events known]

/-- Two runs with one policy, of which the second fails at the line end of its file. -/
def twice : List Event :=
  [.fault "rr" (.recorded none 1000 1042), .fault "rr" (.cut none 2000 2031 1),
    .fault "rr" (.failed none)]

theorem recovery_charts_show_last_times_twice :
    figFaultRecovery (runs ⟨fun _ => [], "/results".toList⟩ Files.empty twice) =
      .ok (some (["Round Robin"], [.num (.rat 31)])) :=
  ((recovery_charts_show_last_times ⟨fun _ => [], "/results".toList⟩ (by decide) twice).1).trans
    rfl

end PcdLab.Analysis.Recovery
