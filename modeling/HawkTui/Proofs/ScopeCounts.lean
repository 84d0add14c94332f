import HawkTui.Proofs.CountLines
import HawkTui.Proofs.Filters
import Mathlib.Data.List.Dedup
import Mathlib.Data.List.Perm.Subperm

/-! The counting thread over a whole run. Nothing is lost as long as each line tells
the scope and level of the frames it counts, and the window's own text tells nothing
of a counter; otherwise frames are reported under another scope or level than their
own, or more or less often than they came. -/

namespace HawkTui.Proofs.ScopeCounts
open Lib Text Numbers AwkRuntime Threads Filters CountLines

section
variable {ν : Type} [DecidableEq ν] (dialect : Dialect ν) (args : List Text) (arith : Arithmetic ν) (world : World)

/-- The records that were reported, those that came since, and the keys reported on.
An emission reports on every key seen so far, once. -/
structure Progress where
  reported : List Text := []
  held : List Text := []
  emitted : List Text := []

def advance (run : ScopeCounts ν × Progress) (record : Text) : ScopeCounts ν × Progress :=
  ((scopeCounts dialect args arith world run.1 record).1,
    let seen := run.2.reported ++ run.2.held ++ [record]
    if isDue arith world run.1 then ⟨seen, [], run.2.emitted ++ (seen.map (countKey dialect)).dedup⟩
    else ⟨run.2.reported, run.2.held ++ [record], run.2.emitted⟩)

def trace (records : List Text) : ScopeCounts ν × Progress :=
  records.foldl (advance dialect args arith world) (scopeCountsBegin dialect args arith world, {})

/-- The texts the script prints, one for each counter and emission. -/
def printed (records : List Text) : List Text :=
  mainLoop (scopeCounts dialect args arith world) (scopeCountsBegin dialect args arith world) records

theorem runScopeCounts_eq (input : Text) : runScopeCounts dialect args arith world input =
    output (printed dialect args arith world (records input)) := rfl

def reported (input : Text) : List Text := (trace dialect args arith world (records input)).2.reported

def held (input : Text) : List Text := (trace dialect args arith world (records input)).2.held

def emittedKeys (input : Text) : List Text := (trace dialect args arith world (records input)).2.emitted

/-- For every scope and level, the counts on the lines of the output and the records
still held make up the records read. -/
def Conserved (input : Text) : Prop :=
  ∀ pair, total pair (records (runScopeCounts dialect args arith world input)) +
      (held dialect args arith world input).countP (fun record => pairOf dialect record = pair) =
    (records input).countP fun record => pairOf dialect record = pair

/-- The lines with the counters. -/
def counterLines (input : Text) : List Text := (printed dialect args arith world (records input)).map headLine

end

variable {ν : Type} [DecidableEq ν] {dialect : Dialect ν} {args : List Text} {arith : Arithmetic ν} {world : World}

section Emission
variable {record now : Text} {counts : BTreeMap Text Nat} {keys : List Text}

/-- The loop prints one line for each key, with the count it had before. -/
theorem emitCounts_lines (distinct : keys.Nodup) :
    (emitCounts dialect args record now counts keys).2 =
      keys.map fun k => lineFor dialect args record now k (counts[k]?.getD 0) := by
  induction keys generalizing counts with
  | nil => rfl
  | cons k rest ih =>
    obtain ⟨absent, distinct⟩ := List.nodup_cons.mp distinct
    rw [emitCounts, List.map_cons, ih distinct]
    simp only [lineFor, part, List.cons.injEq, true_and]
    apply List.map_congr_left
    intro other member
    rw [BTreeMap.getElem?_insert_eq, if_neg]
    rintro rfl
    exact absent member

theorem emitCounts_lookup (key : Text) :
    (emitCounts dialect args record now counts keys).1[key]?.getD 0 = if key ∈ keys then 0 else counts[key]?.getD 0 := by
  induction keys generalizing counts with
  | nil => simp [emitCounts]
  | cons k rest ih =>
    rw [emitCounts]
    simp only [ih, BTreeMap.getElem?_insert_eq, List.mem_cons]
    by_cases same : k = key
    · simp [same]
    · simp [same, Ne.symm same]

theorem mem_emitCounts (key : Text) :
    key ∈ (emitCounts dialect args record now counts keys).1 ↔ key ∈ keys ∨ key ∈ counts := by
  induction keys generalizing counts with
  | nil => simp [emitCounts]
  | cons k rest ih =>
    rw [emitCounts]
    simp only [ih, BTreeMap.mem_insert_eq, List.mem_cons]
    tauto

private theorem countP_split {α : Type} {p q r : α → Prop} [DecidablePred p] [DecidablePred q] [DecidablePred r] (items : List α)
    (either : ∀ a, p a ↔ q a ∨ r a) (apart : ∀ a, q a → ¬ r a) :
    items.countP (fun a => p a) = items.countP (fun a => q a) + items.countP fun a => r a := by
  induction items with
  | nil => rfl
  | cons a items ih =>
    have exclusive := apart a
    simp only [List.countP_cons, ih, decide_eq_true_eq, either a]
    grind

/-- The lines of one emission tell of a scope and level what the counters held that
are reported under it. -/
theorem total_emission (unnamed : ownCount dialect args = none) (line : '\n' ∉ record) (time : InColumn now)
    (distinct : keys.Nodup) (unbroken : ∀ k ∈ keys, InColumn k) (items : List Text) (pair : Text × Text) :
    total pair (keys.map fun k =>
        headLine (lineFor dialect args record now k (items.countP fun item => countKey dialect item = k))) =
      items.countP fun item => countKey dialect item ∈ keys ∧ toldPair dialect args (countKey dialect item) = pair := by
  induction keys with
  | nil => simp [total]
  | cons k rest ih =>
    obtain ⟨absent, others⟩ := List.nodup_cons.mp distinct
    obtain ⟨own, later⟩ := List.forall_mem_cons.mp unbroken
    have here : (if toldPair dialect args k = pair then items.countP fun item => countKey dialect item = k else 0) =
        items.countP fun item => countKey dialect item = k ∧ toldPair dialect args (countKey dialect item) = pair := by
      split
      next same =>
        apply List.countP_congr
        intro item _
        rw [decide_eq_true_iff, decide_eq_true_iff]
        exact ⟨fun key => ⟨key, key ▸ same⟩, And.left⟩
      next other =>
        refine (List.countP_eq_zero.mpr fun item _ found => ?_).symm
        obtain ⟨key, same⟩ := of_decide_eq_true found
        exact other (key ▸ same)
    rw [List.map_cons, total_cons, ih others later, countOf_headLine line time own, unnamed, Option.getD_none]
    simp only [says_headLine line time own]
    rw [here]
    refine (countP_split items (fun item => ?_) fun item left right => ?_).symm
    · rw [List.mem_cons, or_and_right]
    · exact absent (left.1 ▸ right.1)

end Emission

section
variable (dialect args arith world)

theorem trace_append (records : List Text) (record : Text) :
    trace dialect args arith world (records ++ [record]) =
      advance dialect args arith world (trace dialect args arith world records) record := by
  rw [trace, List.foldl_append, ← trace]
  rfl

theorem trace_state (records : List Text) :
    (trace dialect args arith world records).1 =
      records.foldl (fun st record => (scopeCounts dialect args arith world st record).1)
        (scopeCountsBegin dialect args arith world) := by
  induction records using List.reverseRecOn with
  | nil => rfl
  | append_singleton records record ih =>
    rw [trace_append, List.foldl_append, ← ih]
    rfl

theorem printed_append (records : List Text) (record : Text) :
    printed dialect args arith world (records ++ [record]) = printed dialect args arith world records ++
      (scopeCounts dialect args arith world (trace dialect args arith world records).1 record).2 := by
  rw [printed, mainLoop_append, ← trace_state, ← printed]

theorem trace_seen (records : List Text) : (trace dialect args arith world records).2.reported ++
    (trace dialect args arith world records).2.held = records := by
  induction records using List.reverseRecOn with
  | nil => rfl
  | append_singleton records record ih =>
    rw [trace_append, advance]
    split
    · rw [List.append_nil, ih]
    · rw [← List.append_assoc, ih]

/-- What holds of the counters and of what was printed after every record. -/
structure Accounted (st : ScopeCounts ν) (progress : Progress) (texts : List Text) : Prop where
  counts : ∀ key : Text, st.counts[key]?.getD 0 = progress.held.countP fun record => countKey dialect record = key
  keys : ∀ key ∈ st.counts, InColumn key
  seen : ∀ key, key ∈ st.counts ↔ key ∈ (progress.reported ++ progress.held).map (countKey dialect)
  printed : ∀ text ∈ texts, ∃ record now k c, '\n' ∉ record ∧ InColumn now ∧ InColumn k ∧
    text = lineFor dialect args record now k c
  silent : progress.reported = [] → progress.emitted = []
  length : texts.length = progress.emitted.length
  lines : ∀ pair, (texts.map headLine).countP (Says pair) = progress.emitted.countP fun k => toldPair dialect args k = pair
  sums : ownCount dialect args = none → ∀ pair, total pair (texts.map headLine) =
    progress.reported.countP fun record => toldPair dialect args (countKey dialect record) = pair

end

omit [DecidableEq ν] in
theorem counts_insert {counts : BTreeMap Text Nat} {held : List Text}
    (counted : ∀ key : Text, counts[key]?.getD 0 = held.countP fun record => countKey dialect record = key)
    (record key : Text) :
    (counts.insert (countKey dialect record) (counts[countKey dialect record]?.getD 0 + 1))[key]?.getD 0 =
      (held ++ [record]).countP fun record => countKey dialect record = key := by
  rw [BTreeMap.getElem?_insert_eq, List.countP_append, List.countP_singleton]
  by_cases same : countKey dialect record = key
  · simp [same, counted]
  · simp [same, counted]

theorem Accounted.count {st : ScopeCounts ν} {progress : Progress} {texts : List Text}
    (accounted : Accounted dialect args st progress texts) {record : Text} (line : '\n' ∉ record) (nextEmit : ν)
    (readings loops : Nat) :
    Accounted dialect args
      ⟨st.counts.insert (countKey dialect record) (st.counts[countKey dialect record]?.getD 0 + 1), nextEmit, readings, loops⟩
      ⟨progress.reported, progress.held ++ [record], progress.emitted⟩ texts where
  counts := counts_insert accounted.counts record
  keys := by
    intro key member
    rcases (BTreeMap.mem_insert_eq ..).mp member with rfl | old
    · exact countKey_inColumn line dialect
    · exact accounted.keys key old
  seen := by
    intro key
    simp only [BTreeMap.mem_insert_eq, accounted.seen, List.map_append, List.mem_append, List.map_singleton, List.mem_singleton]
    tauto
  printed := accounted.printed
  silent := accounted.silent
  length := accounted.length
  lines := accounted.lines
  sums := accounted.sums

theorem Accounted.emit {st : ScopeCounts ν} {progress : Progress} {texts : List Text}
    (accounted : Accounted dialect args st progress texts) (present : progress.held ≠ []) {record now : Text}
    (line : '\n' ∉ record) (time : InColumn now) {keys : List Text} (order : keys.Perm st.counts.keys) (nextEmit : ν)
    (readings loops : Nat) :
    Accounted dialect args
      ⟨(emitCounts dialect args record now st.counts keys).1, nextEmit, readings, loops⟩
      ⟨progress.reported ++ progress.held, [],
        progress.emitted ++ ((progress.reported ++ progress.held).map (countKey dialect)).dedup⟩
      (texts ++ (emitCounts dialect args record now st.counts keys).2) := by
  have distinct : keys.Nodup := order.nodup_iff.mpr Std.ExtTreeMap.nodup_keys
  have mem : ∀ key, key ∈ keys ↔ key ∈ st.counts := fun key => order.mem_iff.trans Std.ExtTreeMap.mem_keys
  have unbroken : ∀ k ∈ keys, InColumn k := fun k inside => accounted.keys k ((mem k).mp inside)
  have uncounted : ∀ key, key ∉ keys → st.counts[key]?.getD 0 = 0 := by
    intro key missing
    rw [Std.ExtTreeMap.getElem?_eq_none (fun inside => missing ((mem key).mpr inside)), Option.getD_none]
  have all : keys.Perm ((progress.reported ++ progress.held).map (countKey dialect)).dedup := by
    rw [List.perm_ext_iff_of_nodup distinct (List.nodup_dedup _)]
    intro key
    rw [mem, accounted.seen, List.mem_dedup]
  constructor
  · intro key
    rw [emitCounts_lookup, List.countP_nil]
    split
    next => rfl
    next missing => exact uncounted key missing
  · intro key member
    rcases (mem_emitCounts key).mp member with printed | stored
    · exact unbroken key printed
    · exact accounted.keys key stored
  · intro key
    rw [mem_emitCounts, mem, or_self, accounted.seen, List.append_nil]
  · intro text member
    rcases List.mem_append.mp member with old | new
    · exact accounted.printed text old
    · rw [emitCounts_lines distinct] at new
      obtain ⟨k, inside, rfl⟩ := List.mem_map.mp new
      exact ⟨record, now, k, _, line, time, unbroken k inside, rfl⟩
  · intro empty
    exact absurd (List.append_eq_nil_iff.mp empty).2 present
  · rw [List.length_append, accounted.length, emitCounts_lines distinct, List.length_map, all.length_eq, List.length_append]
  · intro pair
    rw [List.map_append, List.countP_append, accounted.lines, emitCounts_lines distinct, List.map_map, List.countP_map,
      List.countP_append, ← all.countP_eq]
    refine congrArg (_ + ·) (List.countP_congr fun k inside => ?_)
    rw [Function.comp_apply, Function.comp_apply, decide_eq_true_iff, decide_eq_true_iff]
    exact says_headLine line time (unbroken k inside) _ pair
  · intro unnamed pair
    -- every record still held is counted under a key of the loop
    have known : ∀ source ∈ progress.held, countKey dialect source ∈ keys := by
      intro source member
      by_contra missing
      have none_held := accounted.counts (countKey dialect source)
      rw [uncounted _ missing, eq_comm, List.countP_eq_zero] at none_held
      exact none_held source member (decide_eq_true rfl)
    have emitted := total_emission unnamed line time distinct unbroken progress.held pair
    simp only [← accounted.counts] at emitted
    rw [List.map_append, total_append, accounted.sums unnamed, emitCounts_lines distinct, List.map_map, List.countP_append]
    refine congrArg (_ + ·) (emitted.trans (List.countP_congr fun source member => ?_))
    rw [decide_eq_true_iff, decide_eq_true_iff]
    exact and_iff_right (known source member)

theorem Accounted.step {run : ScopeCounts ν × Progress} {texts : List Text}
    (accounted : Accounted dialect args run.1 run.2 texts) {record : Text} (line : '\n' ∉ record) :
    Accounted dialect args (advance dialect args arith world run record).1 (advance dialect args arith world run record).2
      (texts ++ (scopeCounts dialect args arith world run.1 record).2) := by
  have time : InColumn (if (dialect.field '\t' record 1).text = [] then "1970-01-01T00:00:00Z".toList
      else (dialect.field '\t' record 1).text) := by
    split
    · exact ⟨by decide, by decide⟩
    · exact field_inColumn line dialect 1
  simp only [advance, scopeCounts]
  split
  next due =>
    have counted := accounted.count line run.1.nextEmit run.1.readings run.1.loops
    rw [List.append_assoc]
    exact counted.emit (by simp) line time (world.order_perm _ _) _ _ _
  next early =>
    rw [List.append_nil]
    exact accounted.count line _ _ _

theorem accounted {records : List Text} (lined : ∀ record ∈ records, '\n' ∉ record) :
    Accounted dialect args (trace dialect args arith world records).1 (trace dialect args arith world records).2
      (printed dialect args arith world records) := by
  induction records using List.reverseRecOn with
  | nil =>
    constructor
    · intro key
      simp [trace, scopeCountsBegin]
    · intro key member
      simp [trace, scopeCountsBegin] at member
    · intro key
      simp [trace, scopeCountsBegin]
    · intro text member
      cases member
    · intro _
      rfl
    · rfl
    · intro pair
      rfl
    · intro _ pair
      rfl
  | append_singleton records record ih =>
    obtain ⟨before, last⟩ := List.forall_mem_append.mp lined
    rw [trace_append, printed_append]
    exact (ih before).step (last record (List.mem_singleton_self record))

section Conservation
variable {input : Text}

theorem accounted_input (dialect : Dialect ν) (args : List Text) (arith : Arithmetic ν) (world : World) (input : Text) :
    Accounted dialect args (trace dialect args arith world (records input)).1 (trace dialect args arith world (records input)).2
      (printed dialect args arith world (records input)) :=
  accounted fun _ member => newline_not_mem_record member

theorem mem_printed {text : Text} (member : text ∈ printed dialect args arith world (records input)) :
    text.splitOn '\n' = headLine text :: furtherLines dialect args := by
  obtain ⟨record, now, k, c, line, time, key, rfl⟩ := (accounted_input dialect args arith world input).printed text member
  rw [headLine, splitOn_lineFor line time key, List.headD_cons]

theorem total_flatMap {further texts : List Text} (split : ∀ text ∈ texts, text.splitOn '\n' = headLine text :: further)
    (pair : Text × Text) : total pair (texts.flatMap (·.splitOn '\n')) =
      total pair (texts.map headLine) + texts.length * total pair further := by
  induction texts with
  | nil => simp [total]
  | cons text texts ih =>
    obtain ⟨own, others⟩ := List.forall_mem_cons.mp split
    rw [List.flatMap_cons, own, total_append, ih others, List.map_cons, total_cons, total_cons, List.length_cons, Nat.add_mul]
    omega

/-- What is conserved is what was reported. -/
theorem conserved_iff_reported : Conserved dialect args arith world input ↔
    ∀ pair, total pair (counterLines dialect args arith world input) +
        (emittedKeys dialect args arith world input).length * total pair (furtherLines dialect args) =
      (reported dialect args arith world input).countP fun record => pairOf dialect record = pair := by
  apply forall_congr'
  intro pair
  have seen : reported dialect args arith world input ++ held dialect args arith world input = records input :=
    trace_seen dialect args arith world (records input)
  have split := congrArg (List.countP fun record => pairOf dialect record = pair) seen
  rw [List.countP_append] at split
  rw [runScopeCounts_eq, records_output_flatMap, total_flatMap fun _ => mem_printed,
    (accounted_input dialect args arith world input).length, counterLines, emittedKeys]
  omega

theorem total_of_counts {n : Nat} {lines : List Text} (counts : ∀ line ∈ lines, countOf line = n) (pair : Text × Text) :
    total pair lines = n * lines.countP (Says pair) := by
  induction lines with
  | nil => simp [total]
  | cons line rest ih =>
    obtain ⟨first, others⟩ := List.forall_mem_cons.mp counts
    rw [total_cons, ih others, List.countP_cons, first]
    by_cases about : Says pair line
    · simp [about, Nat.mul_add, Nat.add_comm]
    · simp [about]

/-- A window with a count of its own gives it to every line. -/
theorem total_of_ownCount {n : Nat} (own : ownCount dialect args = some n) (pair : Text × Text) :
    total pair (counterLines dialect args arith world input) =
      n * (emittedKeys dialect args arith world input).countP fun k => toldPair dialect args k = pair := by
  have accounted := accounted_input dialect args arith world input
  rw [emittedKeys, ← accounted.lines]
  refine total_of_counts (fun line member => ?_) pair
  obtain ⟨text, inside, rfl⟩ := List.mem_map.mp member
  obtain ⟨record, now, k, c, line, time, key, rfl⟩ := accounted.printed text inside
  rw [countOf_headLine line time key, own, Option.getD_some]

/-- Two ways to name the items of a list agree in their counts when one never counts more. -/
private theorem countP_eq_of_le {α β : Type} [DecidableEq β] (items : List α) (f g : α → β)
    (le : ∀ b, items.countP (fun a => f a = b) ≤ items.countP fun a => g a = b) (b : β) :
    items.countP (fun a => f a = b) = items.countP fun a => g a = b := by
  have count : ∀ (h : α → β) b, (items.map h).count b = items.countP fun a => h a = b := by
    intro h b
    rw [List.count, List.countP_map]
    rfl
  have below : List.Subperm (items.map f) (items.map g) :=
    List.subperm_iff_count.mpr fun b => by rw [count, count]; exact le b
  rw [← count, ← count]
  exact (below.perm_of_length_le (by simp)).count_eq b

/-- Without a count of its own the window leaves to each line what its counter held. -/
theorem total_counterLines (unnamed : ownCount dialect args = none) (pair : Text × Text) :
    total pair (counterLines dialect args arith world input) = (reported dialect args arith world input).countP
      fun record => toldPair dialect args (countKey dialect record) = pair :=
  (accounted_input dialect args arith world input).sums unnamed pair

theorem conserved_of_kept (unnamed : ownCount dialect args = none)
    (kept : ∀ record ∈ reported dialect args arith world input,
      Kept dialect args record ∧ ∀ pair, total pair (furtherLines dialect args) = 0) :
    Conserved dialect args arith world input := by
  rw [conserved_iff_reported]
  intro pair
  have own : (reported dialect args arith world input).countP
        (fun record => toldPair dialect args (countKey dialect record) = pair) =
      (reported dialect args arith world input).countP fun record => pairOf dialect record = pair := by
    apply List.countP_congr
    intro record member
    rw [(kept_iff_told record).mp (kept record member).1]
  have further : (emittedKeys dialect args arith world input).length * total pair (furtherLines dialect args) = 0 := by
    cases found : reported dialect args arith world input with
    | nil =>
      have silent := (accounted_input dialect args arith world input).silent found
      rw [emittedKeys, silent, List.length_nil, Nat.zero_mul]
    | cons record rest => rw [(kept record (by simp [found])).2 pair, Nat.mul_zero]
  rw [total_counterLines unnamed, own, further, Nat.add_zero]

theorem kept_of_conserved (unnamed : ownCount dialect args = none) (conserved : Conserved dialect args arith world input) :
    ∀ record ∈ reported dialect args arith world input,
      Kept dialect args record ∧ ∀ pair, total pair (furtherLines dialect args) = 0 := by
  have adds := conserved_iff_reported.mp conserved
  simp only [total_counterLines unnamed] at adds
  have same := countP_eq_of_le (reported dialect args arith world input)
    (fun record => toldPair dialect args (countKey dialect record)) (pairOf dialect)
    fun pair => (adds pair).symm ▸ Nat.le_add_right _ _
  intro record member
  constructor
  · have all : ∀ pair ∈ (reported dialect args arith world input).map (pairOf dialect),
        ∃ other ∈ (reported dialect args arith world input).map (pairOf dialect), toldPair dialect args (keyText other) = pair := by
      intro pair listed
      obtain ⟨source, inside, rfl⟩ := List.mem_map.mp listed
      have counted : 0 < (reported dialect args arith world input).countP
          fun other => toldPair dialect args (countKey dialect other) = pairOf dialect source := by
        rw [same]
        exact List.countP_pos_iff.mpr ⟨source, inside, decide_eq_true rfl⟩
      obtain ⟨other, found, tells⟩ := List.countP_pos_iff.mp counted
      rw [decide_eq_true_iff, countKey_eq] at tells
      exact ⟨pairOf dialect other, List.mem_map_of_mem found, tells⟩
    rw [kept_iff_told, countKey_eq]
    exact told_keyText all (pairOf dialect record) (List.mem_map_of_mem member)
  · intro pair
    have none_further : (emittedKeys dialect args arith world input).length * total pair (furtherLines dialect args) = 0 := by
      have whole := adds pair
      rw [same] at whole
      omega
    refine (Nat.mul_eq_zero.mp none_further).resolve_left fun empty => ?_
    -- the record's own emission has printed a line
    have silent : total (toldPair dialect args (countKey dialect record)) (counterLines dialect args arith world input) = 0 := by
      rw [counterLines, List.length_eq_zero_iff.mp ((accounted_input dialect args arith world input).length.trans empty)]
      rfl
    rw [total_counterLines unnamed, List.countP_eq_zero] at silent
    exact silent record member (decide_eq_true rfl)

/-- The counting thread conserves its events exactly if, the window's text giving no
count, the line for each frame up to the last emission tells the frame's scope and
level and the window's further lines tell of nothing; or if, the window's text giving
the count `n` to every key of an emission, this happens to add up. -/
theorem scope_counts_conserve_iff (dialect : Dialect ν) (args : List Text) (arith : Arithmetic ν) (world : World) (input : Text) :
    Conserved dialect args arith world input ↔
      (ownCount dialect args = none → ∀ record ∈ reported dialect args arith world input,
        Kept dialect args record ∧ ∀ pair, total pair (furtherLines dialect args) = 0) ∧
      ∀ n, ownCount dialect args = some n → ∀ pair,
        n * (emittedKeys dialect args arith world input).countP (fun k => toldPair dialect args k = pair) +
            (emittedKeys dialect args arith world input).length * total pair (furtherLines dialect args) =
          (reported dialect args arith world input).countP fun record => pairOf dialect record = pair := by
  cases own : ownCount dialect args with
  | none =>
    refine ⟨fun conserved => ⟨fun _ => kept_of_conserved own conserved, fun n found => by cases found⟩, ?_⟩
    rintro ⟨kept, -⟩
    exact conserved_of_kept own (kept rfl)
  | some n =>
    have sums : Conserved dialect args arith world input ↔ ∀ pair,
        n * (emittedKeys dialect args arith world input).countP (fun k => toldPair dialect args k = pair) +
            (emittedKeys dialect args arith world input).length * total pair (furtherLines dialect args) =
          (reported dialect args arith world input).countP fun record => pairOf dialect record = pair := by
      rw [conserved_iff_reported]
      simp only [total_of_ownCount own]
    rw [sums]
    constructor
    · intro adds
      refine ⟨(fun found => by cases found), ?_⟩
      rintro _ ⟨⟩
      exact adds
    · rintro ⟨-, adds⟩
      exact adds n rfl

end Conservation

def sampleArithmetic : Arithmetic Int where
  value v := (parseI64 v.text).getD 0
  ofInt n := n
  add a b := a + b
  ge a b := b ≤ a

/-- A clock that runs so fast that every record is followed by an emission. -/
def fastWorld : World where
  systime i := 100 * i
  order _ keys := keys
  order_perm _ _ := .refl _

def windowArgs (window : Text) : List Text := ["-v".toList, "window_s=".toList ++ window]

def plainInput : Text := "t\tHEALTH\tsystemd\tweb\tOK\tup\t\n".toList

def barredInput : Text := "t\tHEALTH\ta|b\tweb\tOK\tup\t\n".toList

theorem plainInput_reported (args : List Text) (fast : isDue sampleArithmetic fastWorld
    (scopeCountsBegin sampleDialect args sampleArithmetic fastWorld) = true) (record : Text)
    (member : record ∈ reported sampleDialect args sampleArithmetic fastWorld plainInput) :
    record = "t\tHEALTH\tsystemd\tweb\tOK\tup\t".toList := by
  have only : records plainInput = ["t\tHEALTH\tsystemd\tweb\tOK\tup\t".toList] := by decide
  rw [reported, only, trace, List.foldl_cons, List.foldl_nil, advance, if_pos fast] at member
  exact List.mem_singleton.mp member

/-- The default window, and one with a part that names nothing of a counter. -/
theorem scope_counts_conserve_plain :
    Conserved sampleDialect [] sampleArithmetic fastWorld plainInput ∧
      Conserved sampleDialect (windowArgs "10;x=1|2".toList) sampleArithmetic fastWorld plainInput := by
  constructor
  · have proper : ProperWindow sampleDialect [] := properWindow_of_int (Or.inl (by decide))
    have unnamed : ownCount sampleDialect [] = none := by decide +kernel
    have further : furtherLines sampleDialect [] = [] := by decide +kernel
    refine (scope_counts_conserve_iff sampleDialect [] sampleArithmetic fastWorld plainInput).mpr
      ⟨fun _ record member => ⟨?_, fun pair => by rw [further]; rfl⟩, fun n found => absurd (unnamed.symm.trans found) (by simp)⟩
    obtain rfl := plainInput_reported [] (by decide +kernel) record member
    exact (proper.kept_iff _).mpr ⟨⟨by decide, by decide, by decide⟩, ⟨by decide, by decide, by decide⟩⟩
  · have unnamed : ownCount sampleDialect (windowArgs "10;x=1|2".toList) = none := by decide +kernel
    have further : furtherLines sampleDialect (windowArgs "10;x=1|2".toList) = [] := by decide +kernel
    refine (scope_counts_conserve_iff sampleDialect (windowArgs "10;x=1|2".toList) sampleArithmetic fastWorld plainInput).mpr
      ⟨fun _ record member => ⟨?_, fun pair => by rw [further]; rfl⟩, fun n found => absurd (unnamed.symm.trans found) (by simp)⟩
    obtain rfl := plainInput_reported _ (by decide +kernel) record member
    exact ⟨by decide +kernel, by decide +kernel, by decide, by decide⟩

/-- The frame of the scope `a|b` and the level `ok` is reported under the scope `a` and
the level `b`; under a window that names a count, a frame is reported seven times. -/
theorem barred_scope_miscounted :
    (runScopeCounts sampleDialect [] sampleArithmetic fastWorld barredInput =
        "t\tRECEIPT_EVENT\tawk\tscope_counts\tinfo\tcount\tsrc_scope=a;src_level=b;count=1;window_s=10\n".toList ∧
      ¬Conserved sampleDialect [] sampleArithmetic fastWorld barredInput) ∧
    runScopeCounts sampleDialect (windowArgs "10;count=7".toList) sampleArithmetic fastWorld plainInput =
        "t\tRECEIPT_EVENT\tawk\tscope_counts\tinfo\tcount\tsrc_scope=systemd;src_level=ok;count=1;window_s=10;count=7\n".toList ∧
      ¬Conserved sampleDialect (windowArgs "10;count=7".toList) sampleArithmetic fastWorld plainInput := by
  refine ⟨⟨by decide +kernel, fun conserved => ?_⟩, by decide +kernel, fun conserved => ?_⟩
  · exact absurd (conserved ("a|b".toList, "ok".toList)) (by decide +kernel)
  · exact absurd (conserved ("systemd".toList, "ok".toList)) (by decide +kernel)

end HawkTui.Proofs.ScopeCounts
