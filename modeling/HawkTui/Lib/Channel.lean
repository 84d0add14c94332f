import Mathlib.Data.List.Basic
import Mathlib.Tactic.Common

/-! Unbounded channels that keep their order. A channel remembers what was taken
out of it, so that what was ever sent is the two parts laid end to end. -/

namespace HawkTui.Lib

structure Channel (α : Type u) where
  received : List α := []
  waiting : List α := []
  deriving DecidableEq

namespace Channel

variable {α : Type u} {β : Type v} {γ : Type x} {channel next : Channel α} {item : α}

def sent (channel : Channel α) : List α := channel.received ++ channel.waiting

def send (channel : Channel α) (item : α) : Channel α := { channel with waiting := channel.waiting ++ [item] }

def receive (channel : Channel α) : Option (α × Channel α) :=
  match channel.waiting with
  | [] => none
  | item :: rest => some (item, ⟨channel.received ++ [item], rest⟩)

@[simp] theorem received_send (channel : Channel α) (item : α) : (channel.send item).received = channel.received := rfl

@[simp] theorem waiting_send (channel : Channel α) (item : α) : (channel.send item).waiting = channel.waiting ++ [item] := rfl

@[simp] theorem sent_send (channel : Channel α) (item : α) : (channel.send item).sent = channel.sent ++ [item] := by
  simp [sent]

/-- Several items, one after another. -/
def sendAll (channel : Channel α) (items : List α) : Channel α := { channel with waiting := channel.waiting ++ items }

@[simp] theorem sendAll_nil (channel : Channel α) : channel.sendAll [] = channel := by simp [sendAll]

theorem sendAll_singleton (channel : Channel α) (item : α) : channel.sendAll [item] = channel.send item := rfl

@[simp] theorem received_sendAll (channel : Channel α) (items : List α) :
    (channel.sendAll items).received = channel.received := rfl

@[simp] theorem waiting_sendAll (channel : Channel α) (items : List α) :
    (channel.sendAll items).waiting = channel.waiting ++ items := rfl

@[simp] theorem sent_sendAll (channel : Channel α) (items : List α) :
    (channel.sendAll items).sent = channel.sent ++ items := by
  simp [sent, sendAll]

theorem receive_eq_some_iff : channel.receive = some (item, next) ↔
    channel.waiting = item :: next.waiting ∧ next.received = channel.received ++ [item] := by
  obtain ⟨received, waiting⟩ := channel
  obtain ⟨received', waiting'⟩ := next
  cases waiting with
  | nil => simp [receive]
  | cons first rest =>
    simp only [receive, Option.some.injEq, Prod.mk.injEq, mk.injEq, List.cons.injEq]
    constructor
    · rintro ⟨rfl, rfl, rfl⟩
      exact ⟨⟨rfl, rfl⟩, rfl⟩
    · rintro ⟨⟨rfl, rfl⟩, rfl⟩
      exact ⟨rfl, rfl, rfl⟩

/-- Taking an item out changes nothing of what was sent. -/
theorem sent_receive (taken : channel.receive = some (item, next)) : next.sent = channel.sent := by
  obtain ⟨head, grown⟩ := receive_eq_some_iff.mp taken
  rw [sent, sent, head, grown, List.append_assoc, List.singleton_append]

theorem received_receive (taken : channel.receive = some (item, next)) : next.received = channel.received ++ [item] :=
  (receive_eq_some_iff.mp taken).2

theorem receive_eq_none_iff : channel.receive = none ↔ channel.waiting = [] := by
  unfold receive
  split <;> simp_all

theorem received_front (channel : Channel α) : channel.received <+: channel.sent := List.prefix_append _ _

theorem received_eq_sent (empty : channel.waiting = []) : channel.received = channel.sent := by
  rw [sent, empty, List.append_nil]

/-- The beginning of messages laid end to end is some whole messages and a part of the next. -/
theorem exists_whole_of_front {messages : List (List α)} {items : List α} (front : items <+: messages.flatten) :
    ∃ whole part, whole <+: messages ∧ items = whole.flatten ++ part ∧
      (part = [] ∨ ∃ message ∈ messages, part <+: message ∧ part.length < message.length) := by
  induction messages generalizing items with
  | nil => exact ⟨[], items, List.prefix_rfl, rfl, Or.inl (List.prefix_nil.mp front)⟩
  | cons message messages ih =>
    rw [List.flatten_cons] at front
    by_cases short : items.length < message.length
    · have inside := List.prefix_of_prefix_length_le front (List.prefix_append _ _) (by omega)
      exact ⟨[], items, List.nil_prefix, rfl, Or.inr ⟨message, by simp, inside, short⟩⟩
    · obtain ⟨later, rfl⟩ := List.prefix_of_prefix_length_le (List.prefix_append _ _) front (by omega)
      obtain ⟨whole, part, known, rfl, rest⟩ := ih ((List.prefix_append_right_inj _).mp front)
      refine ⟨message :: whole, part, List.cons_prefix_cons.mpr ⟨rfl, known⟩, by simp, rest.imp id ?_⟩
      rintro ⟨next, member, cut⟩
      exact ⟨next, by simp [member], cut⟩

/-- One more item, where what was sent so far is the beginning of a list. -/
theorem front_snoc {items list : List α} (front : items <+: list) (next : list[items.length]? = some item) :
    items ++ [item] <+: list := by
  have grown : items ++ [item] = list.take (items.length + 1) := by
    rw [List.take_add_one, next, ← List.prefix_iff_eq_take.mp front]
    rfl
  rw [grown]
  exact List.take_prefix _ _

/-- The items of one sender on a channel that several share. -/
def of [DecidableEq ι] (sender : ι) (items : List (ι × β)) : List β :=
  (items.filter fun item => item.1 = sender).map Prod.snd

section
variable {ι : Type w} [DecidableEq ι] (sender : ι)

@[simp] theorem of_nil : of sender ([] : List (ι × β)) = [] := rfl

@[simp] theorem of_append (items others : List (ι × β)) : of sender (items ++ others) = of sender items ++ of sender others := by
  simp [of]

@[simp] theorem of_self (item : β) : of sender [(sender, item)] = [item] := by simp [of]

@[simp] theorem of_other {other : ι} (apart : other ≠ sender) (item : β) : of sender [(other, item)] = [] := by
  simp [of, apart]

@[simp] theorem of_map_self (items : List β) : of sender (items.map (sender, ·)) = items := by
  simp [of, List.filter_map, Function.comp_def]

@[simp] theorem of_map_other {other : ι} (apart : other ≠ sender) (items : List β) :
    of sender (items.map (other, ·)) = [] := by
  simp [of, List.filter_map, Function.comp_def, apart]

theorem mem_of {items : List (ι × β)} {item : β} : item ∈ of sender items ↔ (sender, item) ∈ items := by
  simp [of]

/-- What only one sender sends is found among that sender's items. -/
theorem filterMap_of (items : List (ι × β)) (pick : β → Option γ)
    (others : ∀ other item, other ≠ sender → item ∈ of other items → pick item = none) :
    (items.map Prod.snd).filterMap pick = (of sender items).filterMap pick := by
  induction items with
  | nil => rfl
  | cons head items ih =>
    obtain ⟨owner, item⟩ := head
    have rest := ih fun other item apart member =>
      others other item apart ((mem_of other).mpr (List.mem_cons_of_mem _ ((mem_of other).mp member)))
    by_cases own : owner = sender
    · subst own
      have own : of owner ((owner, item) :: items) = item :: of owner items := by simp [of]
      rw [own, List.map_cons, List.filterMap_cons, List.filterMap_cons, rest]
    · have skipped : of sender ((owner, item) :: items) = of sender items := by simp [of, own]
      have none : pick item = none := others owner item own ((mem_of owner).mpr (by simp))
      rw [skipped, List.map_cons, List.filterMap_cons, none, rest]

/-- Where every item gives something, the last one gives the last. -/
theorem getLast?_filterMap {items : List β} {pick : β → Option γ} (all : ∀ item ∈ items, pick item ≠ none) :
    (items.filterMap pick).getLast? = items.getLast?.bind pick := by
  rcases List.eq_nil_or_concat items with rfl | ⟨front, item, rfl⟩
  · rfl
  · obtain ⟨out, given⟩ := Option.ne_none_iff_exists'.mp (all item (by simp))
    simp [List.filterMap_append, given]

/-- The items on a channel are those of its senders together. -/
theorem perm_of (senders : List ι) (items : List (ι × β)) (distinct : senders.Nodup)
    (known : ∀ item ∈ items, item.1 ∈ senders) : (items.map Prod.snd).Perm (senders.flatMap fun sender => of sender items) := by
  induction items with
  | nil => simp [of]
  | cons head items ih =>
    obtain ⟨owner, item⟩ := head
    have rest := ih fun other member => known other (List.mem_cons_of_mem _ member)
    obtain ⟨before, after, rfl⟩ := List.append_of_mem (known (owner, item) (by simp))
    have apart : ∀ others : List ι, owner ∉ others →
        (others.flatMap fun sender => of sender ((owner, item) :: items)) = others.flatMap fun sender => of sender items := by
      intro others absent
      refine List.flatMap_congr fun sender member => ?_
      have differs : owner ≠ sender := fun same => absent (same ▸ member)
      simp [of, differs]
    have own : of owner ((owner, item) :: items) = item :: of owner items := by simp [of]
    simp only [List.nodup_append, List.nodup_cons] at distinct
    have early : owner ∉ before := fun member => distinct.2.2 owner member owner (by simp) rfl
    simp only [List.map_cons, List.flatMap_append, List.flatMap_cons, own, apart before early, apart after distinct.2.1.1,
      List.cons_append] at rest ⊢
    exact (rest.cons item).trans List.perm_middle.symm

/-- Each sender keeps its own order when one of them sends what is next in it. -/
theorem of_snoc {items : List (ι × β)} {lists : ι → List β} {item : β} (own : ∀ other, of other items <+: lists other)
    (next : (lists sender)[(of sender items).length]? = some item) (other : ι) :
    of other (items ++ [(sender, item)]) <+: lists other := by
  rw [of_append]
  by_cases same : sender = other
  · subst same
    rw [of_self]
    exact front_snoc (own sender) next
  · rw [of_other other same, List.append_nil]
    exact own other

theorem of_front {items others : List (ι × β)} (front : items <+: others) : of sender items <+: of sender others := by
  obtain ⟨rest, rfl⟩ := front
  rw [of_append]
  exact List.prefix_append _ _

end

end Channel

end HawkTui.Lib
