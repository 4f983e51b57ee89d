import Mathlib.Data.List.DropRight
import PcdLab.Analysis.K6
import PcdLab.Lib.JsonPrefixes

/-! # The metrics collected from Prometheus

`collect_prometheus.sh` asks Prometheus for five numbers, by a small program which prints the
first sample of an answer, and puts what is printed into a JSON file as it is. Both readers of
the file, `load_prom` of `summary_table.py` and of `plot_results.py`, decode it as a whole.
-/

namespace PcdLab.Analysis.Prometheus

open Lib

/-! ## `query` -/

/-- What `curl` prints, and whether it succeeds. -/
structure Curl where
  body : List Char
  ok : Bool
  deriving Repr, DecidableEq

/-- `if v`. -/
def truthy : Json → Bool
  | .null => false
  | .bool b => b
  | .num (.rat q) => q ≠ 0
  | .num _ => true
  | .str s => s ≠ []
  | .arr elements => !elements.isEmpty
  | .obj members => !members.isEmpty

/-- `v[i]`, where whatever goes wrong is `none`. -/
def item (v : Json) (i : Nat) : Option Json :=
  match v with
  | .arr elements => elements[i]?
  | .str s => s[i]?.map fun c => .str [c]
  | _ => none

/-- `v[key]`. -/
def entry (v : Json) (key : String) : Option Json :=
  match v with
  | .obj members => field members key
  | _ => none

/-- What the program of `query` prints; without results it is the text `null`. -/
def firstSample (body : List Char) : Option Json := do
  let data ← Json.loads body
  let results ← (get data "data" emptyDict >>= fun data => get data "result" (.arr [])).toOption
  if truthy results then
    let value ← entry (← item results 0) "value"
    item value 1
  else some (.str (Json.text "null"))

/-- `print` fails on half of a surrogate pair. -/
def encode (s : Json.Text) : Option (List Char) :=
  s.mapM fun n => if n.isValidChar then some (Char.ofNat n) else none

/-- `str(v)`, with what it makes of anything but a text. -/
def str (repr : Json → Json.Text) : Json → Json.Text
  | .str s => s
  | v => repr v

/-- `$(query ..)`. When `curl` or the program fails, `null` is printed too. The shell takes the
    line ends off the end, and leaves out what is no character. -/
def query (repr : Json → Json.Text) (curl : Curl) : List Char :=
  let printed := (firstSample curl.body).bind fun v => encode (str repr v)
  let stdout := (printed.map (· ++ ['\n'])).getD []
  let all := if curl.ok ∧ printed.isSome then stdout else stdout ++ "null\n".toList
  (all.filter (· ≠ '\x00')).rdropWhile (· = '\n')

/-! ## The file -/

/-- The five metrics. -/
structure Metrics (α : Type) where
  p50 : α
  p95 : α
  p99 : α
  throughputRps : α
  errors5xxRps : α
  deriving Repr, DecidableEq

namespace Metrics

variable {α β : Type}

def map (f : α → β) (m : Metrics α) : Metrics β :=
  ⟨f m.p50, f m.p95, f m.p99, f m.throughputRps, f m.errors5xxRps⟩

def toList (m : Metrics α) : List α :=
  [m.p50, m.p95, m.p99, m.throughputRps, m.errors5xxRps]

/-- All five, or nothing. -/
def sequence (m : Metrics (Option α)) : Option (Metrics α) := do
  return ⟨← m.p50, ← m.p95, ← m.p99, ← m.throughputRps, ← m.errors5xxRps⟩

end Metrics

/-- What `cat` writes. -/
def promJson (policy scenario : List Char) (m : Metrics (List Char)) : List Char :=
  "\x7b\n  \"policy\": \"".toList ++ (policy ++
    ("\",\n  \"scenario\": \"".toList ++ (scenario ++
      ("\",\n  \"latency_ms\": \x7b\n    \"p50\": ".toList ++ (m.p50 ++
        (",\n    \"p95\": ".toList ++ (m.p95 ++
          (",\n    \"p99\": ".toList ++ (m.p99 ++
            ("\n  \x7d,\n  \"throughput_rps\": ".toList ++ (m.throughputRps ++
              (",\n  \"errors_5xx_rps\": ".toList ++ (m.errors5xxRps ++
                "\n\x7d\n".toList)))))))))))))

/-- What the file says when all of it can be decoded. -/
def promDict (policy scenario : List Char) (m : Metrics Json) : Json :=
  .obj [(Json.text "policy", .str (policy.map Char.toNat)),
    (Json.text "scenario", .str (scenario.map Char.toNat)),
    (Json.text "latency_ms", .obj [(Json.text "p50", m.p50), (Json.text "p95", m.p95),
      (Json.text "p99", m.p99)]),
    (Json.text "throughput_rps", m.throughputRps),
    (Json.text "errors_5xx_rps", m.errors5xxRps)]

/-! ## Decoding the file -/

/-- A text which is a value by itself, or no value. -/
def Whole (text : List Char) : Prop := text ≠ [] ∧ ∀ c ∈ text, Json.isAtomChar c

section Decoding

variable {p50 p95 p99 throughput errors : List Char}

/-- The last two members, and the end of the text. -/
theorem run_rates (someRps : Whole throughput) (some5xx : Whole errors)
    (members : List (Json.Text × Json)) :
    (Json.run ⟨[.member members (Json.text "throughput_rps")], .value⟩
        (throughput ++ (",\n  \"errors_5xx_rps\": ".toList ++ (errors ++
          ("\n\x7d\n".toList ++ []))))).bind Json.finish =
      (Json.atom throughput).bind fun rps => (Json.atom errors).map fun e5xx =>
        .obj (((Json.text "errors_5xx_rps", e5xx) :: (Json.text "throughput_rps", rps) ::
          members).reverse) := by
  have between : ∀ v, Json.run
      ⟨[.obj ((Json.text "throughput_rps", v) :: members)], .afterElement⟩
      ",\n  \"errors_5xx_rps\": ".toList =
        some ⟨[.member ((Json.text "throughput_rps", v) :: members)
          (Json.text "errors_5xx_rps")], .value⟩ := fun v => rfl
  have closing : ∀ before v, Json.run
      ⟨[.obj ((Json.text "errors_5xx_rps", v) :: before)], .afterElement⟩ "\n\x7d\n".toList =
        some ⟨[], .done (.obj ((Json.text "errors_5xx_rps", v) :: before).reverse)⟩ :=
    fun before v => rfl
  rw [Json.run_value_part someRps.2 someRps.1 rfl (.inr (by decide)) between]
  cases Json.atom throughput with
  | none => rfl
  | some rps =>
      rw [Option.bind_some, Option.bind_some,
        Json.run_value_part some5xx.2 some5xx.1 rfl (.inl (by decide)) (closing _)]
      cases Json.atom errors with
      | none => rfl
      | some e5xx => rfl

/-- The quantiles, up to the member behind them. -/
theorem run_quantiles (some50 : Whole p50) (some95 : Whole p95) (some99 : Whole p99)
    (members : List (Json.Text × Json)) (rest : List Char) :
    Json.run ⟨[.member [] (Json.text "p50"), .member members (Json.text "latency_ms")], .value⟩
        (p50 ++ (",\n    \"p95\": ".toList ++ (p95 ++ (",\n    \"p99\": ".toList ++ (p99 ++
          ("\n  \x7d,\n  \"throughput_rps\": ".toList ++ rest)))))) =
      (Json.atom p50).bind fun v50 => (Json.atom p95).bind fun v95 =>
        (Json.atom p99).bind fun v99 =>
          Json.run ⟨[.member ((Json.text "latency_ms", .obj [(Json.text "p50", v50),
            (Json.text "p95", v95), (Json.text "p99", v99)]) :: members)
              (Json.text "throughput_rps")], .value⟩ rest := by
  have to95 : ∀ before stack v, Json.run
      ⟨.obj ((Json.text "p50", v) :: before) :: stack, .afterElement⟩
      ",\n    \"p95\": ".toList = some ⟨.member ((Json.text "p50", v) :: before)
        (Json.text "p95") :: stack, .value⟩ := fun before stack v => rfl
  have to99 : ∀ before stack v, Json.run
      ⟨.obj ((Json.text "p95", v) :: before) :: stack, .afterElement⟩
      ",\n    \"p99\": ".toList = some ⟨.member ((Json.text "p95", v) :: before)
        (Json.text "p99") :: stack, .value⟩ := fun before stack v => rfl
  have toRps : ∀ before v, Json.run
      ⟨[.obj ((Json.text "p99", v) :: before), .member members (Json.text "latency_ms")],
        .afterElement⟩ "\n  \x7d,\n  \"throughput_rps\": ".toList =
      some ⟨[.member ((Json.text "latency_ms", .obj ((Json.text "p99", v) :: before).reverse) ::
        members) (Json.text "throughput_rps")], .value⟩ := fun before v => rfl
  rw [Json.run_value_part some50.2 some50.1 rfl (.inr (by decide)) (to95 _ _)]
  cases Json.atom p50 with
  | none => rfl
  | some v50 =>
      rw [Option.bind_some, Option.bind_some,
        Json.run_value_part some95.2 some95.1 rfl (.inr (by decide)) (to99 _ _)]
      cases Json.atom p95 with
      | none => rfl
      | some v95 =>
          rw [Option.bind_some, Option.bind_some,
            Json.run_value_part some99.2 some99.1 rfl (.inl (by decide)) (toRps _)]
          cases Json.atom p99 with
          | none => rfl
          | some v99 => rfl

end Decoding

/-- The names of the policy and the scenario, up to the quantiles. -/
theorem run_names {policy scenario : List Char} (policy_plain : policy.all Json.isPlain)
    (scenario_plain : scenario.all Json.isPlain) (rest : List Char) :
    Json.run Json.start ("\x7b\n  \"policy\": \"".toList ++ (policy ++
        ("\",\n  \"scenario\": \"".toList ++ (scenario ++
          ("\",\n  \"latency_ms\": \x7b\n    \"p50\": ".toList ++ rest))))) =
      Json.run ⟨[.member [] (Json.text "p50"), .member
        [(Json.text "scenario", .str (scenario.map Char.toNat)),
          (Json.text "policy", .str (policy.map Char.toNat))] (Json.text "latency_ms")],
            .value⟩ rest := by
  have opening : Json.run Json.start "\x7b\n  \"policy\": \"".toList =
      some ⟨[.member [] (Json.text "policy")], .string false []⟩ := rfl
  have named : ∀ read, Json.run ⟨[.member [] (Json.text "policy")], .string false read⟩
      "\",\n  \"scenario\": \"".toList =
      some ⟨[.member [(Json.text "policy", .str (Json.joinSurrogates read.reverse))]
        (Json.text "scenario")], .string false []⟩ := fun read => rfl
  have described : ∀ before read, Json.run
      ⟨[.member before (Json.text "scenario")], .string false read⟩
      "\",\n  \"latency_ms\": \x7b\n    \"p50\": ".toList =
      some ⟨[.member [] (Json.text "p50"), .member ((Json.text "scenario",
        .str (Json.joinSurrogates read.reverse)) :: before) (Json.text "latency_ms")],
          .value⟩ := fun before read => rfl
  rw [Json.run_part opening,
    Json.run_string_part (t := fun s => ⟨[.member [(Json.text "policy", .str s)]
      (Json.text "scenario")], .string false []⟩) (List.all_eq_true.mp policy_plain) named,
    Json.run_string_part (t := fun s => ⟨[.member [] (Json.text "p50"), .member
      [(Json.text "scenario", .str s), (Json.text "policy", .str (policy.map Char.toNat))]
        (Json.text "latency_ms")], .value⟩) (List.all_eq_true.mp scenario_plain) (described _)]

/-- The file is JSON exactly when each of the five texts is a value by itself. -/
theorem loads_promJson {policy scenario : List Char} {m : Metrics (List Char)}
    (policy_plain : policy.all Json.isPlain) (scenario_plain : scenario.all Json.isPlain)
    (values : ∀ text ∈ m.toList, Whole text) :
    Json.loads (promJson policy scenario m) =
      (m.map Json.atom).sequence.map (promDict policy scenario) := by
  obtain ⟨p50, p95, p99, throughput, errors⟩ := m
  simp only [Metrics.toList, List.forall_mem_cons] at values
  obtain ⟨some50, some95, some99, someRps, some5xx, -⟩ := values
  have closed : "\n\x7d\n".toList = "\n\x7d\n".toList ++ [] := (List.append_nil _).symm
  unfold Json.loads promJson Metrics.map Metrics.sequence
  rw [closed, run_names policy_plain scenario_plain, run_quantiles some50 some95 some99]
  cases Json.atom p50 with
  | none => rfl
  | some v50 =>
      cases Json.atom p95 with
      | none => rfl
      | some v95 =>
          cases Json.atom p99 with
          | none => rfl
          | some v99 =>
              simp only [Option.bind_some]
              rw [run_rates someRps some5xx]
              cases Json.atom throughput with
              | none => rfl
              | some rps =>
                  cases Json.atom errors with
                  | none => rfl
                  | some e5xx => rfl

/-! ## A file that is cut short -/

/-- The file up to its last brace. -/
def promBody (policy scenario : List Char) (m : Metrics (List Char)) : List Char :=
  "\x7b\n  \"policy\": \"".toList ++ (policy ++
    ("\",\n  \"scenario\": \"".toList ++ (scenario ++
      ("\",\n  \"latency_ms\": \x7b\n    \"p50\": ".toList ++ (m.p50 ++
        (",\n    \"p95\": ".toList ++ (m.p95 ++
          (",\n    \"p99\": ".toList ++ (m.p99 ++
            ("\n  \x7d,\n  \"throughput_rps\": ".toList ++ (m.throughputRps ++
              (",\n  \"errors_5xx_rps\": ".toList ++ (m.errors5xxRps ++
                "\n".toList)))))))))))))

theorem promJson_body (policy scenario : List Char) (m : Metrics (List Char)) :
    promJson policy scenario m = promBody policy scenario m ++ ['\x7d', '\n'] := by
  unfold promJson promBody
  simp only [List.append_assoc]
  rfl

theorem whole_closers {text : List Char} (whole : Whole text) :
    text.countP Json.isCloser = 0 :=
  List.countP_eq_zero.mpr fun c member => Json.atomChar_closer (whole.2 c member)

section Cut

variable {policy scenario : List Char} (policy_open : policy.countP Json.isCloser = 0)
  (scenario_open : scenario.countP Json.isCloser = 0)

include policy_open scenario_open

theorem unfinished_names : Json.Unfinished Json.start ("\x7b\n  \"policy\": \"".toList ++ (policy ++
    ("\",\n  \"scenario\": \"".toList ++ (scenario ++
      ("\",\n  \"latency_ms\": \x7b\n    \"p50\": ".toList ++ []))))) := by
  have literals : "\x7b\n  \"policy\": \"".toList.countP Json.isCloser = 0 ∧
      "\",\n  \"scenario\": \"".toList.countP Json.isCloser = 0 ∧
      "\",\n  \"latency_ms\": \x7b\n    \"p50\": ".toList.countP Json.isCloser = 0 := by
    decide
  apply Json.unfinished_object
  · rfl
  · simp only [List.countP_append, policy_open, scenario_open, literals, List.countP_nil]

/-- Behind the names two objects are open, and only one of them is closed before the end. -/
theorem unfinished_promBody (policy_plain : policy.all Json.isPlain)
    (scenario_plain : scenario.all Json.isPlain) {m : Metrics (List Char)}
    (values : ∀ text ∈ m.toList, Whole text) :
    Json.Unfinished Json.start (promBody policy scenario m) := by
  obtain ⟨p50, p95, p99, throughput, errors⟩ := m
  simp only [Metrics.toList, List.forall_mem_cons] at values
  obtain ⟨some50, some95, some99, someRps, some5xx, -⟩ := values
  let rest := p50 ++ (",\n    \"p95\": ".toList ++ (p95 ++ (",\n    \"p99\": ".toList ++ (p99 ++
    ("\n  \x7d,\n  \"throughput_rps\": ".toList ++ (throughput ++
      (",\n  \"errors_5xx_rps\": ".toList ++ (errors ++ "\n".toList))))))))
  have literals : ",\n    \"p95\": ".toList.countP Json.isCloser = 0 ∧
      ",\n    \"p99\": ".toList.countP Json.isCloser = 0 ∧
      "\n  \x7d,\n  \"throughput_rps\": ".toList.countP Json.isCloser = 1 ∧
      ",\n  \"errors_5xx_rps\": ".toList.countP Json.isCloser = 0 ∧
      "\n".toList.countP Json.isCloser = 0 := by
    decide
  have closers : rest.countP Json.isCloser = 1 := by
    simp only [rest, List.countP_append, whole_closers some50, whole_closers some95,
      whole_closers some99, whole_closers someRps, whole_closers some5xx, literals]
  have whole : promBody policy scenario ⟨p50, p95, p99, throughput, errors⟩ =
      ("\x7b\n  \"policy\": \"".toList ++ (policy ++ ("\",\n  \"scenario\": \"".toList ++
        (scenario ++ ("\",\n  \"latency_ms\": \x7b\n    \"p50\": ".toList ++ []))))) ++ rest := by
    unfold promBody
    simp only [List.append_assoc, List.nil_append, rest]
  rw [whole]
  apply (unfinished_names policy_open scenario_open).append
  intro t ran
  have opened := ran.symm.trans (run_names policy_plain scenario_plain [])
  cases opened
  exact Json.unfinished_of_few (closers ▸ Nat.lt_succ_self 1)

end Cut

/-! ## What Prometheus answers -/

/-- The first sample of an answer, if there is one. Numbers are spelled in decimals, and the
    infinities are not spelled as they are in JSON. -/
inductive Sample where
  | absent
  | number (text : List Char) (value : ℚ) (reads : Json.number text = some value)
  | nan
  | infinity (negative : Bool)

namespace Sample

def text : Sample → List Char
  | .absent => "null".toList
  | .number text _ _ => text
  | .nan => "NaN".toList
  | .infinity false => "+Inf".toList
  | .infinity true => "-Inf".toList

/-- What a reader of the file makes of it. -/
def json : Sample → Option Json
  | .absent => some .null
  | .number _ value _ => some (.num (.rat value))
  | .nan => some (.num .nan)
  | .infinity _ => none

def isInfinite : Sample → Bool
  | .infinity _ => true
  | _ => false

theorem atom_text (s : Sample) : Json.atom s.text = s.json := by
  cases s with
  | absent => rfl
  | number text value reads => exact Json.atom_of_number reads
  | nan => rfl
  | infinity negative => cases negative <;> rfl

theorem whole_text (s : Sample) : Whole s.text := by
  cases s with
  | absent => exact ⟨by decide, List.all_eq_true.mp (by decide)⟩
  | number text value reads =>
      exact ⟨Json.number_ne_nil reads, fun c member => Json.number_chars reads member⟩
  | nan => exact ⟨by decide, List.all_eq_true.mp (by decide)⟩
  | infinity negative =>
      cases negative with
      | false => exact ⟨by decide, List.all_eq_true.mp (by decide)⟩
      | true => exact ⟨by decide, List.all_eq_true.mp (by decide)⟩

end Sample

/-- The results of an answer of the API. -/
def vector (body : List Char) : Option (List Json) :=
  match Json.loads body with
  | some (.obj answer) =>
      match field answer "data" with
      | some (.obj data) =>
          match field data "result" with
          | some (.arr results) => some results
          | _ => none
      | _ => none
  | _ => none

/-- The body is a vector without a sample, or one whose first sample is as it is said. When the
    API cannot be reached, refuses the query or breaks off, `curl` prints nothing or a part. -/
inductive Answers : Curl → Sample → Prop where
  | unread {body ok} : Json.loads body = none → Answers ⟨body, ok⟩ .absent
  | empty {body} : vector body = some [] → Answers ⟨body, true⟩ .absent
  | first {body others members ts} {s : Sample} :
      vector body = some (.obj members :: others) →
      field members "value" = some (.arr [ts, .str (s.text.map Char.toNat)]) →
      Answers ⟨body, true⟩ s

theorem firstSample_vector {body : List Char} {results : List Json}
    (vectored : vector body = some results) : firstSample body =
      if results.isEmpty then some (.str (Json.text "null"))
      else (results[0]?.bind fun first => entry first "value").bind fun value =>
        item value 1 := by
  unfold vector at vectored
  split at vectored
  · rename_i answer decoded
    split at vectored
    · rename_i data inside
      split at vectored
      · rename_i found
        cases vectored
        simp only [firstSample, decoded, Option.bind_some, get, inside, Option.getD_some, bind,
          Except.bind, found, Except.toOption, truthy, item]
        cases results with
        | nil => rfl
        | cons first others => rfl
      · cases vectored
    · cases vectored
  · cases vectored

theorem encode_chars (chars : List Char) : encode (chars.map Char.toNat) = some chars := by
  have each : ∀ c : Char, (if c.toNat.isValidChar then some (Char.ofNat c.toNat) else none) =
      some c := by
    intro c
    have valid : c.toNat.isValidChar := c.valid
    rw [if_pos valid, Char.ofNat_toNat]
  unfold encode
  induction chars with
  | nil => rfl
  | cons c chars ih =>
      rw [List.map_cons, List.mapM_cons, each, ih]
      rfl

/-- A text without line ends comes out of `$(..)` as it is printed. -/
theorem substituted {chars : List Char} (whole : Whole chars) :
    ((chars ++ ['\n']).filter (· ≠ '\x00')).rdropWhile (· = '\n') = chars := by
  have visible : ∀ c ∈ chars, c ≠ '\x00' ∧ c ≠ '\n' := by
    intro c member
    constructor <;> rintro rfl <;> exact absurd (whole.2 _ member) (by decide)
  have kept : (chars ++ ['\n']).filter (· ≠ '\x00') = chars ++ ['\n'] := by
    apply List.filter_eq_self.mpr
    intro c member
    rcases List.mem_append.mp member with inside | last
    · simpa using (visible c inside).1
    · cases List.mem_singleton.mp last
      decide
  rw [kept, List.rdropWhile_concat_pos _ _ _ (by decide)]
  apply List.rdropWhile_eq_self_iff.mpr
  intro nonempty
  simpa using (visible _ (List.getLast_mem nonempty)).2

/-- `query` prints the first sample of an answer as Prometheus spells it, and `null` without
    one. -/
theorem query_answers (repr : Json → Json.Text) {curl : Curl} {s : Sample}
    (answers : Answers curl s) : query repr curl = s.text := by
  cases answers with
  | @unread body ok invalid =>
      have unsampled : firstSample body = none := by rw [firstSample, invalid]; rfl
      rw [query, unsampled]
      cases ok <;> rfl
  | @empty body vectored =>
      have sample : firstSample body = some (.str ("null".toList.map Char.toNat)) := by
        rw [firstSample_vector vectored]
        rfl
      simp only [query, sample, Option.bind_some, str, encode_chars, Option.map_some,
        Option.getD_some, Option.isSome_some, and_self, if_true]
      exact substituted Sample.absent.whole_text
  | @first body others members ts s vectored value =>
      have sample : firstSample body = some (.str (s.text.map Char.toNat)) := by
        rw [firstSample_vector vectored]
        simp [entry, value, item]
      simp only [query, sample, Option.bind_some, str, encode_chars, Option.map_some,
        Option.getD_some, Option.isSome_some, and_self, if_true]
      exact substituted s.whole_text

/-- An answer and what it says. -/
structure Answer where
  curl : Curl
  sample : Sample
  answers : Answers curl sample

/-- Of what no reader decodes, `null` stands here. -/
def Sample.value (s : Sample) : Json := s.json.getD .null

def Metrics.isInfinite (m : Metrics Answer) : Bool := m.toList.any fun a => a.sample.isInfinite

theorem Sample.json_eq (s : Sample) :
    s.json = if s.isInfinite then none else some s.value := by
  cases s <;> rfl

theorem query_answer (repr : Json → Json.Text) (a : Answer) :
    query repr a.curl = a.sample.text := query_answers repr a.answers

theorem whole_answers (repr : Json → Json.Text) (m : Metrics Answer) :
    ∀ text ∈ (m.map fun a => query repr a.curl).toList, Whole text := by
  simp only [Metrics.toList, Metrics.map, List.forall_mem_cons, query_answer, Sample.whole_text,
    true_and]
  exact fun text member => absurd member List.not_mem_nil

section Answers

variable (repr : Json → Json.Text) {policy scenario : List Char}
  (policy_plain : policy.all Json.isPlain) (scenario_plain : scenario.all Json.isPlain)
  (m : Metrics Answer)

include policy_plain scenario_plain

/-- The file has the values of the five samples. If one of them is infinite, it has nothing. -/
theorem loads_answers :
    Json.loads (promJson policy scenario (m.map fun a => query repr a.curl)) =
      if m.isInfinite then none
      else some (promDict policy scenario (m.map fun a => a.sample.value)) := by
  rw [loads_promJson policy_plain scenario_plain (whole_answers repr m)]
  simp only [Metrics.map, Metrics.sequence, Metrics.isInfinite, Metrics.toList, query_answer,
    Sample.atom_text, Sample.json_eq, List.any_cons, List.any_nil, Bool.or_false]
  cases m.p50.sample.isInfinite <;> cases m.p95.sample.isInfinite <;>
    cases m.p99.sample.isInfinite <;> cases m.throughputRps.sample.isInfinite <;>
    cases m.errors5xxRps.sample.isInfinite <;> rfl

/-- When the last characters of the file are missing, it has nothing either, unless it is the
    line end alone. -/
theorem loads_answers_cut (policy_open : policy.countP Json.isCloser = 0)
    (scenario_open : scenario.countP Json.isCloser = 0) (missing : Nat) :
    Json.loads ((promJson policy scenario (m.map fun a => query repr a.curl)).rdrop missing) =
      if m.isInfinite ∨ 1 < missing then none
      else some (promDict policy scenario (m.map fun a => a.sample.value)) := by
  have unfinished := unfinished_promBody policy_open scenario_open policy_plain scenario_plain
    (whole_answers repr m)
  have cut := Json.loads_cut unfinished missing
  rw [← promJson_body, loads_answers repr policy_plain scenario_plain] at cut
  rw [cut]
  by_cases short : missing ≤ 1
  · simp [short, Nat.not_lt.mpr short]
  · simp [short, Nat.not_le.mp short]

end Answers

/-- An answer with one sample, as the API spells it. -/
def vectorText : List Char :=
  ("\x7b\"status\":\"success\",\"data\":\x7b\"resultType\":\"vector\",\"result\":" ++
    "[\x7b\"metric\":\x7b\x7d,\"value\":[1767225600,\"12.5\"]\x7d]\x7d\x7d").toList

example : query (fun _ => []) ⟨vectorText, true⟩ = "12.5".toList := by decide +kernel

def measured : Answer where
  curl := ⟨vectorText, true⟩
  sample := .number "12.5".toList (mkRat 125 10) (by decide +kernel)
  answers := @Answers.first vectorText [] [(Json.text "metric", .obj []), (Json.text "value",
    .arr [.num (.rat (mkRat 1767225600 1)), .str (Json.text "12.5")])] _ _ rfl rfl

end PcdLab.Analysis.Prometheus
