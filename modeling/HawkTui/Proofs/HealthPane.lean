import HawkTui.Proofs.DashboardRows

/-! The health pane against the adapter: every reading the adapter prints is a row. -/

namespace HawkTui.Proofs.HealthPane
open Lib Text Dashboard AwkRuntime

/-- A line of the adapter. -/
structure Reading where
  endpoint : Text
  status : Text
  latency : Text
  source : Text
  more : List Text := []

def Reading.columns (r : Reading) : List Text := r.endpoint :: r.status :: r.latency :: r.source :: r.more

def Reading.line (r : Reading) : Text := ['\t'].intercalate r.columns

def Reading.row (upper : Text → Text) (r : Reading) : GrpcRow where
  endpoint := strip r.endpoint
  status := upper (strip (toupper r.status))
  latency := strip r.latency
  source := strip r.source

/-- The columns stand on one line, which neither starts nor ends in blanks. -/
structure Reading.Tabular (r : Reading) : Prop where
  tabless : ∀ column ∈ r.columns, '\t' ∉ column
  unbroken : ∀ column ∈ r.columns, ∀ c ∈ column, isLineBreak c = false
  starts : ∃ c, r.endpoint.head? = some c ∧ isSpace c = false
  ends : ∃ c, r.source.getLast? = some c ∧ isSpace c = false

/-- What the script prints for the reading. -/
def Reading.printed (r : Reading) : Text := ['\t'].intercalate [r.endpoint, toupper r.status, r.latency, r.source]

section Lines

theorem splitlines_newline (rest : Text) : splitlines ('\n' :: rest) = [] :: splitlines rest := by
  rw [splitlines]
  · exact if_pos (by decide)
  · simp

theorem splitlines_cons {c : Char} (plain : isLineBreak c = false) {rest line : Text} {more : List Text}
    (split : splitlines rest = line :: more) : splitlines (c :: rest) = (c :: line) :: more := by
  rw [splitlines, if_neg (by simp [plain]), split]
  intro _ carriage
  rw [carriage] at plain
  exact absurd plain (by decide)

theorem splitlines_body {body : Text} (unbroken : ∀ c ∈ body, isLineBreak c = false) (rest : Text) :
    splitlines (body ++ '\n' :: rest) = body :: splitlines rest := by
  induction body with
  | nil => exact splitlines_newline rest
  | cons c body ih =>
    exact splitlines_cons (unbroken c (by simp)) (ih fun d member => unbroken d (by simp [member]))

theorem splitlines_last {body : Text} (unbroken : ∀ c ∈ body, isLineBreak c = false) (present : body ≠ []) :
    splitlines body = [body] := by
  induction body with
  | nil => exact absurd rfl present
  | cons c body ih =>
    by_cases final : body = []
    · subst final
      have plain : isLineBreak c = false := unbroken c (by simp)
      rw [splitlines, if_neg (by simp [plain]), splitlines]
      simp
    · exact splitlines_cons (unbroken c (by simp)) (ih (fun d member => unbroken d (by simp [member])) final)

theorem splitlines_output {front : List Text} {last : Text} (unbroken : ∀ line ∈ front, ∀ c ∈ line, isLineBreak c = false)
    (lastUnbroken : ∀ c ∈ last, isLineBreak c = false) (present : last ≠ []) :
    splitlines (output front ++ last) = front ++ [last] := by
  induction front with
  | nil => exact splitlines_last lastUnbroken present
  | cons line front ih =>
    have split := splitlines_body (unbroken line (by simp)) (output front ++ last)
    rw [ih fun other member => unbroken other (by simp [member])] at split
    simpa [output] using split

theorem strip_newline {s : Text} {first last : Char} (head : s.head? = some first) (visible : isSpace first = false)
    (tail : s.getLast? = some last) (shown : isSpace last = false) : strip (s ++ ['\n']) = s := by
  have kept : (s ++ ['\n']).dropWhile isSpace = s ++ ['\n'] := by
    cases s with
    | nil => simp at head
    | cons c rest =>
      obtain rfl : c = first := by simpa using head
      rw [List.cons_append, List.dropWhile_cons, visible]
      rfl
  have newline : isSpace '\n' = true := by decide
  rw [strip, kept, List.rdropWhile_concat_pos _ _ _ newline, List.rdropWhile_eq_self_iff]
  intro present
  rw [List.getLast?_eq_some_getLast present] at tail
  rw [Option.some.inj tail, shown]
  decide

end Lines

section Readings
variable {r : Reading}

theorem toUpper_cases (c : Char) : c.toUpper = c ∨ (65 ≤ c.toUpper.toNat ∧ c.toUpper.toNat ≤ 90) := by
  unfold Char.toUpper
  split
  next lower =>
    have low : 97 ≤ c.toNat := UInt32.le_iff_toNat_le.mp lower.1
    have top : c.toNat ≤ 122 := UInt32.le_iff_toNat_le.mp lower.2
    have sum : (c.val + ('A'.val - 'a'.val)).toNat = c.toNat - 32 := by
      rw [UInt32.toNat_add]
      change (c.toNat + 4294967264) % 2 ^ 32 = c.toNat - 32
      omega
    have letter : 65 ≤ (c.val + ('A'.val - 'a'.val)).toNat ∧ (c.val + ('A'.val - 'a'.val)).toNat ≤ 90 := by omega
    exact Or.inr letter
  next => exact Or.inl rfl

theorem isLineBreak_toUpper {c : Char} (plain : isLineBreak c = false) : isLineBreak c.toUpper = false := by
  rcases toUpper_cases c with same | letter
  · rw [same]
    exact plain
  · simp only [isLineBreak, Bool.or_eq_false_iff, Bool.and_eq_false_iff, decide_eq_false_iff_not, beq_eq_false_iff_ne]
    omega

theorem tab_not_mem_toupper {s : Text} (absent : '\t' ∉ s) : '\t' ∉ toupper s := by
  intro member
  obtain ⟨c, inside, same⟩ := List.mem_map.mp member
  rcases toUpper_cases c with kept | letter
  · rw [kept] at same
    exact absent (same ▸ inside)
  · rw [same] at letter
    exact absurd letter.1 (by decide)

theorem Reading.printed_eq (r : Reading) :
    r.printed = r.endpoint ++ '\t' :: (toupper r.status ++ '\t' :: (r.latency ++ '\t' :: r.source)) := by
  simp [Reading.printed, List.intercalate]

theorem Reading.Tabular.fields (tabular : r.Tabular) : AwkRuntime.fields '\t' r.line = r.columns := by
  have split := List.splitOn_intercalate '\t' tabular.tabless (by simp [Reading.columns])
  have whole : r.line.isEmpty = false := by
    simp [Reading.line, Reading.columns, List.intercalate]
  rw [AwkRuntime.fields, whole]
  exact split

theorem Reading.Tabular.newline_not_mem_line (tabular : r.Tabular) : '\n' ∉ r.line := by
  intro member
  rcases mem_of_mem_intercalate member with separator | ⟨column, listed, inside⟩
  · exact absurd separator (by decide)
  · exact absurd (tabular.unbroken column listed '\n' inside) (by decide)

theorem Reading.Tabular.prints (tabular : r.Tabular) : grpcHealth r.line = [r.printed] := by
  rw [grpcHealth, tabular.fields]
  rfl

theorem Reading.Tabular.row_printed (tabular : r.Tabular) (upper : Text → Text) : grpcRow upper r.printed = some (r.row upper) := by
  have absent : ∀ column ∈ [r.endpoint, toupper r.status, r.latency, r.source], '\t' ∉ column := by
    have tabless := tabular.tabless
    simp only [Reading.columns, List.forall_mem_cons] at tabless ⊢
    exact ⟨tabless.1, tab_not_mem_toupper tabless.2.1, tabless.2.2.1, tabless.2.2.2.1, by simp⟩
  have columns : r.printed.splitOn '\t' = [r.endpoint, toupper r.status, r.latency, r.source] :=
    List.splitOn_intercalate '\t' absent (by simp)
  rw [grpcRow, columns]
  rfl

theorem Reading.Tabular.printed_unbroken (tabular : r.Tabular) : ∀ c ∈ r.printed, isLineBreak c = false := by
  have unbroken := tabular.unbroken
  simp only [Reading.columns, List.forall_mem_cons] at unbroken
  obtain ⟨endpoint, status, latency, source, -⟩ := unbroken
  have tab : isLineBreak '\t' = false := by decide
  have raised : ∀ c ∈ toupper r.status, isLineBreak c = false := by
    intro c member
    obtain ⟨d, inside, rfl⟩ := List.mem_map.mp member
    exact isLineBreak_toUpper (status d inside)
  rw [Reading.printed_eq]
  simp only [List.forall_mem_append, List.forall_mem_cons]
  exact ⟨endpoint, tab, raised, tab, latency, tab, source⟩

theorem Reading.Tabular.printed_starts (tabular : r.Tabular) : ∃ c, r.printed.head? = some c ∧ isSpace c = false := by
  obtain ⟨c, head, visible⟩ := tabular.starts
  exact ⟨c, by simp [Reading.printed_eq, head], visible⟩

theorem Reading.Tabular.printed_ends (tabular : r.Tabular) : ∃ c, r.printed.getLast? = some c ∧ isSpace c = false := by
  obtain ⟨c, last, visible⟩ := tabular.ends
  exact ⟨c, by simp [Reading.printed_eq, List.getLast?_append, List.getLast?_cons, last], visible⟩

end Readings

/-- Captured and split again, the lines are those that were printed. -/
theorem splitlines_captured {readings : List Reading} (tabular : ∀ r ∈ readings, r.Tabular) :
    splitlines (strip (output (readings.map Reading.printed) ++ [])) = readings.map Reading.printed := by
  rw [List.append_nil]
  rcases readings.eq_nil_or_concat with rfl | ⟨front, last, rfl⟩
  · rfl
  have lastTabular := tabular last (by simp)
  obtain ⟨final, tail, shown⟩ := lastTabular.printed_ends
  have present : last.printed ≠ [] := by
    intro none
    simp [none] at tail
  have ending : (output (front.map Reading.printed) ++ last.printed).getLast? = some final := by
    rw [List.getLast?_append, tail]
    rfl
  have beginning : ∃ c, (output (front.map Reading.printed) ++ last.printed).head? = some c ∧ isSpace c = false := by
    cases front with
    | nil => exact lastTabular.printed_starts
    | cons first rest =>
      obtain ⟨c, head, visible⟩ := (tabular first (by simp)).printed_starts
      exact ⟨c, by simp [output, head], visible⟩
  obtain ⟨start, head, visible⟩ := beginning
  have whole : output ((front ++ [last]).map Reading.printed) = output (front.map Reading.printed) ++ last.printed ++ ['\n'] := by
    simp [output]
  have unbroken : ∀ line ∈ front.map Reading.printed, ∀ c ∈ line, isLineBreak c = false := by
    intro line member
    obtain ⟨r, listed, rfl⟩ := List.mem_map.mp member
    exact (tabular r (by simp [listed])).printed_unbroken
  rw [List.concat_eq_append, whole, strip_newline head visible ending shown,
    splitlines_output unbroken lastTabular.printed_unbroken present]
  simp

theorem pollGrpc_readings (upper : Text → Text) {outside : Outside} {readings : List Reading} (tabular : ∀ r ∈ readings, r.Tabular)
    (heard : outside.grpc = captureGrpcHealth (output (readings.map Reading.line))) :
    DashboardRun.grpcOf upper outside = readings.map (Reading.row upper) := by
  have single : ∀ line ∈ readings.map Reading.line, '\n' ∉ line := by
    intro line member
    obtain ⟨r, listed, rfl⟩ := List.mem_map.mp member
    exact (tabular r listed).newline_not_mem_line
  have prints : (readings.map Reading.line).flatMap grpcHealth = readings.map Reading.printed := by
    rw [List.flatMap_map]
    have each : ∀ r ∈ readings, grpcHealth r.line = [r.printed] := fun r listed => (tabular r listed).prints
    rw [List.flatMap_congr each, List.map_eq_flatMap]
  have rows : ∀ r ∈ readings, (grpcRow upper ∘ Reading.printed) r = (some ∘ Reading.row upper) r :=
    fun r listed => (tabular r listed).row_printed upper
  simp only [DashboardRun.grpcOf, said, heard, captureGrpcHealth, runCapture, run, records_output single, mainLoop_stateless,
    prints, if_true, splitlines_captured tabular]
  rw [List.filterMap_map, List.filterMap_congr rows, List.filterMap_eq_map]

/-- Every reading of the adapter becomes a row of the pane, in the same order, and the
gauge counts those that are serving. -/
theorem pane_shows_readings (upper : Text → Text) (outside : Outside) (cache : StateCache) (readings : List Reading)
    (tabular : ∀ r ∈ readings, r.Tabular) (heard : outside.grpc = captureGrpcHealth (output (readings.map Reading.line))) :
    (pollGrpc upper outside cache).grpcRows = readings.map (Reading.row upper) ∧
      (pollGrpc upper outside cache).grpcOk = readings.countP fun r => upper (strip (toupper r.status)) = "SERVING".toList := by
  have rows := pollGrpc_readings upper tabular heard
  refine ⟨rows, ?_⟩
  have counted : (pollGrpc upper outside cache).grpcOk =
      (DashboardRun.grpcOf upper outside).countP fun row => row.status = "SERVING".toList := by
    simp only [pollGrpc, DashboardRun.foldl_countGrpc, Nat.zero_add, DashboardRun.grpcOf]
  rw [counted, rows, List.countP_map]
  rfl

def sampleReadings : List Reading := [
  { endpoint := "db:443".toList, status := "serving".toList, latency := "3ms".toList, source := "grpcurl".toList },
  { endpoint := "cache:80".toList, status := "Unknown".toList, latency := " -".toList, source := "fake".toList,
    more := ["deadline".toList] }]

theorem sampleReadings_tabular : ∀ r ∈ sampleReadings, r.Tabular := by
  have checked :
      (sampleReadings.all fun r => r.columns.all fun column => column.all fun c => !isLineBreak c && c != '\t') = true := by
    decide
  have edges : (sampleReadings.all fun r => r.endpoint.head?.any (!isSpace ·) && r.source.getLast?.any (!isSpace ·)) = true := by
    decide
  intro r member
  have columns := List.all_eq_true.mp (List.all_eq_true.mp checked r member)
  have ends := List.all_eq_true.mp edges r member
  simp only [Bool.and_eq_true, Option.any_eq_true, Bool.not_eq_true'] at ends
  have inside : ∀ column ∈ r.columns, ∀ c ∈ column, isLineBreak c = false ∧ c ≠ '\t' := by
    intro column listed c member
    simpa using List.all_eq_true.mp (columns column listed) c member
  exact ⟨fun column listed tab => (inside column listed '\t' tab).2 rfl,
    fun column listed c member => (inside column listed c member).1, ends.1, ends.2⟩

def sampleWorld : Outside :=
  { DashboardRows.sampleOutside with grpc := captureGrpcHealth (output (sampleReadings.map Reading.line)) }

/-- Two readings, the second with a column more than the pane has. -/
theorem pane_shows_readings_lowercase :
    (pollGrpc id sampleWorld {}).grpcRows = [⟨"db:443".toList, "SERVING".toList, "3ms".toList, "grpcurl".toList⟩,
        ⟨"cache:80".toList, "UNKNOWN".toList, "-".toList, "fake".toList⟩] ∧
      (pollGrpc id sampleWorld {}).grpcOk = 1 := by
  obtain ⟨rows, serving⟩ := pane_shows_readings id sampleWorld {} sampleReadings sampleReadings_tabular rfl
  exact ⟨rows.trans rfl, serving.trans (by decide)⟩

end HawkTui.Proofs.HealthPane
