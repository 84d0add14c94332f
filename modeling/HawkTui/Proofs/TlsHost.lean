import HawkTui.Hawkd.GrpcHealth
import HawkTui.Lib.Columns

/-! The name a certificate is checked against. It is cut out of the endpoint at
the first slash and the first colon behind the scheme, which finds the host unless
the host has colons of its own. -/

namespace HawkTui.Proofs.TlsHost
open Lib Text Numbers GrpcHealth

def isHexDigit (c : Char) : Bool := c.isDigit || "abcdefABCDEF".toList.contains c

def isRegNameChar (c : Char) : Bool := c.isAlphanum || "-._~!$&'()*+,;=".toList.contains c

/-- A registered name: plain characters, and others in percent encoding. -/
def isRegName : Text → Bool
  | [] => true
  | '%' :: a :: b :: rest => isHexDigit a && isHexDigit b && isRegName rest
  | c :: rest => isRegNameChar c && isRegName rest

def isIpv4 (s : Text) : Bool :=
  (s.splitOn '.').length = 4 && (s.splitOn '.').all fun part => (List.range 256).any fun n => part = Nat.toDigits 10 n

def isH16 (s : Text) : Bool := 1 ≤ s.length && s.length ≤ 4 && s.all isHexDigit

/-- The end of an IPv6 address stands for so many groups of sixteen bits. Its last
part may be an IPv4 address. -/
def IsTail (parts : List Text) (groups : Nat) : Prop :=
  (∀ part ∈ parts, isH16 part = true) ∧ groups = parts.length ∨
    ∃ front address, parts = front ++ [address] ∧ (∀ part ∈ front, isH16 part = true) ∧ isIpv4 address = true ∧
      groups = front.length + 2

/-- Eight groups, or fewer around one double colon. -/
def IsIpv6 (s : Text) : Prop :=
  (∃ parts, s = [':'].intercalate parts ∧ IsTail parts 8) ∨
    ∃ left right groups, s = [':'].intercalate left ++ "::".toList ++ [':'].intercalate right ∧
      (∀ part ∈ left, isH16 part = true) ∧ IsTail right groups ∧ left.length + groups ≤ 7

inductive IsHost : Text → Prop where
  | name {s : Text} (name : isRegName s = true) : IsHost s
  | ipv4 {s : Text} (address : isIpv4 s = true) : IsHost s
  | ipv6 {s : Text} (address : IsIpv6 s) : IsHost ('[' :: s ++ [']'])

def IsPort (s : Text) : Prop := s ≠ [] ∧ s.all Char.isDigit = true

instance (s : Text) : Decidable (IsPort s) := inferInstanceAs (Decidable (_ ∧ _))

def portText : Option Text → Text
  | some port => ':' :: port
  | none => []

def pathText : Option Text → Text
  | some path => '/' :: path
  | none => []

def schemeText (https : Bool) : Text := if https then "https://".toList else []

def endpointText (https : Bool) (host : Text) (port path : Option Text) : Text :=
  schemeText https ++ host ++ portText port ++ pathText path

def inHost (c : Char) : Bool := c != '/' && c != ':'

theorem takeWhile_append_stop {p : Char → Bool} {rest : Text} (stop : rest.takeWhile p = []) (s : Text) :
    (s ++ rest).takeWhile p = s.takeWhile p := by
  induction s with
  | nil => exact stop
  | cons c s ih => rw [List.cons_append, List.takeWhile_cons, List.takeWhile_cons, ih]

/-- Behind the scheme the host goes on up to the first slash or colon. -/
theorem deriveHostFromUri_https (rest : Text) :
    deriveHostFromUri ("https://".toList ++ rest) =
      if (rest.takeWhile inHost).isEmpty then none else some (rest.takeWhile inHost) := by
  obtain ⟨first, others, parts, stops⟩ := head_splitText "://".toList rest
  have found : (splitText "://".toList ("https://".toList ++ rest))[1]? = some first := by
    have cut : splitText "://".toList ("https://".toList ++ rest) = "https".toList :: splitText "://".toList rest := rfl
    rw [cut, parts]
    rfl
  have same : first.takeWhile inHost = rest.takeWhile inHost := by
    rcases stops with rfl | ⟨behind, rfl⟩
    · rfl
    · -- the separator starts with a colon, so the host ended before it
      exact (takeWhile_append_stop rfl first).symm
  rw [deriveHostFromUri, found]
  simp only [Option.bind_eq_bind, Option.bind_some, head_splitOn, Option.getD_some, List.takeWhile_takeWhile]
  have both : (fun c : Char => decide ((c != ':') = true ∧ (c != '/') = true)) = inHost := by
    funext c
    rw [Bool.decide_and, Bool.decide_eq_true, Bool.decide_eq_true, inHost, Bool.and_comm]
  rw [both, same]

/-- A visible character that neither ends a host nor opens an address. -/
def HostChar (c : Char) : Prop := inHost c = true ∧ c ≠ '[' ∧ isWhitespace c = false

instance (c : Char) : Decidable (HostChar c) := inferInstanceAs (Decidable (_ ∧ _))

theorem hostChar_of_isAlphanum {c : Char} (name : c.isAlphanum = true) : HostChar c := by
  rw [HostChar, inHost, Bool.and_eq_true, bne_iff_ne, bne_iff_ne]
  refine ⟨⟨?_, ?_⟩, ?_, visible_of_isAlphanum name⟩ <;> rintro rfl <;> simp at name

theorem hostChar_of_isDigit {c : Char} (digit : c.isDigit = true) : HostChar c :=
  hostChar_of_isAlphanum (Bool.or_eq_true_iff.mpr (Or.inr digit))

theorem hostChar_of_mem {c : Char} {chars : Text} (all : chars.all (fun c => HostChar c) = true) (member : c ∈ chars) :
    HostChar c := by
  simpa using List.all_eq_true.mp all c member

theorem hostChar_of_isHexDigit {c : Char} (hex : isHexDigit c = true) : HostChar c := by
  rcases (Bool.or_eq_true _ _).mp hex with digit | letter
  · exact hostChar_of_isDigit digit
  · exact hostChar_of_mem (by decide) (List.contains_iff_mem.mp letter)

theorem hostChar_of_isRegNameChar {c : Char} (name : isRegNameChar c = true) : HostChar c := by
  rcases (Bool.or_eq_true _ _).mp name with alphanum | sign
  · exact hostChar_of_isAlphanum alphanum
  · exact hostChar_of_mem (by decide) (List.contains_iff_mem.mp sign)

theorem hostChar_of_isRegName {s : Text} (name : isRegName s = true) : ∀ c ∈ s, HostChar c := by
  induction s using isRegName.induct with
  | case1 => simp
  | case2 a b rest ih =>
    rw [isRegName, Bool.and_eq_true, Bool.and_eq_true] at name
    simp only [List.forall_mem_cons]
    exact ⟨by decide, hostChar_of_isHexDigit name.1.1, hostChar_of_isHexDigit name.1.2, ih name.2⟩
  | case3 c rest unescaped ih =>
    rw [isRegName, Bool.and_eq_true] at name
    · exact List.forall_mem_cons.mpr ⟨hostChar_of_isRegNameChar name.1, ih name.2⟩
    · exact unescaped

theorem hostChar_of_isIpv4 {s : Text} (address : isIpv4 s = true) : ∀ c ∈ s, HostChar c := by
  intro c member
  have joined : ['.'].intercalate (s.splitOn '.') = s := List.intercalate_splitOn '.'
  rw [← joined] at member
  rcases mem_of_mem_intercalate member with rfl | ⟨part, inside, member⟩
  · decide
  · have octets := (Bool.and_eq_true _ _ ▸ address).2
    obtain ⟨n, -, same⟩ := List.any_eq_true.mp (List.all_eq_true.mp octets part inside)
    rw [decide_eq_true_eq] at same
    subst same
    exact hostChar_of_isDigit (Nat.isDigit_of_mem_toDigits (by decide) (by decide) member)

theorem hostChar_of_isH16 {s : Text} (group : isH16 s = true) : ∀ c ∈ s, HostChar c := by
  intro c member
  exact hostChar_of_isHexDigit (List.all_eq_true.mp (Bool.and_eq_true _ _ ▸ group).2 c member)

theorem IsTail.plain {parts : List Text} {groups : Nat} (tail : IsTail parts groups) :
    ∀ part ∈ parts, ∀ c ∈ part, HostChar c := by
  rcases tail with ⟨all, -⟩ | ⟨front, address, rfl, all, last, -⟩
  · intro part inside
    exact hostChar_of_isH16 (all part inside)
  · intro part inside
    rcases List.mem_append.mp inside with inside | inside
    · exact hostChar_of_isH16 (all part inside)
    · rw [List.mem_singleton.mp inside]
      exact hostChar_of_isIpv4 last

theorem IsTail.length {parts : List Text} {groups : Nat} (tail : IsTail parts groups) : groups ≤ parts.length + 1 := by
  rcases tail with ⟨-, rfl⟩ | ⟨front, address, rfl, -, -, rfl⟩
  · omega
  · simp

theorem IsIpv6.visible {s : Text} (address : IsIpv6 s) : ∀ c ∈ s, isWhitespace c = false := by
  have joined : ∀ parts : List Text, (∀ part ∈ parts, ∀ c ∈ part, HostChar c) →
      ∀ c ∈ [':'].intercalate parts, isWhitespace c = false := by
    intro parts plain c member
    rcases mem_of_mem_intercalate member with rfl | ⟨part, inside, member⟩
    · decide
    · exact (plain part inside c member).2.2
  rcases address with ⟨parts, rfl, tail⟩ | ⟨left, right, groups, rfl, all, tail, -⟩
  · exact joined parts tail.plain
  · intro c member
    rw [List.append_assoc, List.mem_append, List.mem_append] at member
    rcases member with member | member | member
    · exact joined left (fun part inside => hostChar_of_isH16 (all part inside)) c member
    · obtain rfl : c = ':' := by simpa using member
      decide
    · exact joined right tail.plain c member

theorem IsIpv6.colon {s : Text} (address : IsIpv6 s) : ':' ∈ s := by
  rcases address with ⟨parts, rfl, tail⟩ | ⟨left, right, groups, rfl, -⟩
  · have long := tail.length
    cases parts with
    | nil => simp at long
    | cons first rest =>
      cases rest with
      | nil => simp at long
      | cons second rest => simp [List.intercalate_cons_cons]
  · simp

theorem IsHost.plain_or_ipv6 {host : Text} (valid : IsHost host) :
    (∀ c ∈ host, HostChar c) ∨ ∃ address, IsIpv6 address ∧ host = '[' :: address ++ [']'] := by
  cases valid with
  | name name => exact Or.inl (hostChar_of_isRegName name)
  | ipv4 address => exact Or.inl (hostChar_of_isIpv4 address)
  | ipv6 address => exact Or.inr ⟨_, address, rfl⟩

theorem IsHost.visible {host : Text} (valid : IsHost host) : ∀ c ∈ host, isWhitespace c = false := by
  intro c member
  rcases valid.plain_or_ipv6 with plain | ⟨address, ipv6, rfl⟩
  · exact (plain c member).2.2
  · rcases List.mem_append.mp member with member | member
    · rcases List.mem_cons.mp member with rfl | member
      · decide
      · exact ipv6.visible c member
    · obtain rfl := List.mem_singleton.mp member
      decide

/-- What can follow a host: nothing, a port or a path. -/
inductive Follows : Text → Prop where
  | nothing : Follows []
  | port (d : Char) (rest : Text) (digit : d ≠ '/') : Follows (':' :: d :: rest)
  | path (rest : Text) : Follows ('/' :: rest)

theorem Follows.stop {after : Text} (follows : Follows after) : after.takeWhile inHost = [] := by
  cases follows <;> rfl

theorem trimmed_of_visible {s : Text} (visible : ∀ c ∈ s, isWhitespace c = false) : Trimmed s := by
  rw [trimmed_iff]
  exact ⟨fun c first => visible c (List.mem_of_head? first), fun c last => visible c (List.mem_of_getLast? last)⟩

theorem follows_port {port : Option Text} (numeric : ∀ p, port = some p → IsPort p) {rest : Text}
    (behind : rest = [] ∨ ∃ path, rest = '/' :: path) : Follows (portText port ++ rest) := by
  cases port with
  | none =>
    rcases behind with rfl | ⟨path, rfl⟩
    · exact .nothing
    · exact .path path
  | some p =>
    obtain ⟨present, digits⟩ := numeric p rfl
    obtain ⟨d, others, rfl⟩ := List.exists_cons_of_ne_nil present
    apply Follows.port
    rintro rfl
    simp at digits

/-- Trimming an endpoint can only shorten its path. -/
theorem trim_endpointText (https : Bool) {host : Text} {port : Option Text} (path : Option Text) (valid : IsHost host)
    (numeric : ∀ p, port = some p → IsPort p) :
    ∃ after, Follows after ∧ trim (endpointText https host port path) = schemeText https ++ (host ++ after) := by
  have front : Trimmed (schemeText https ++ host ++ portText port) := by
    apply trimmed_of_visible
    intro c member
    rcases List.mem_append.mp member with member | member
    · rcases List.mem_append.mp member with member | member
      · cases https with
        | false => simp [schemeText] at member
        | true =>
          have all : "https://".toList.all (fun c => !isWhitespace c) = true := by decide
          simpa using List.all_eq_true.mp all c member
      · exact valid.visible c member
    · cases port with
      | none => simp [portText] at member
      | some p =>
        rcases List.mem_cons.mp member with rfl | member
        · decide
        · exact visible_of_isDigit (List.all_eq_true.mp (numeric p rfl).2 c member)
  cases path with
  | none =>
    refine ⟨portText port ++ [], follows_port numeric (Or.inl rfl), ?_⟩
    rw [endpointText, pathText, List.append_nil, front, List.append_nil, List.append_assoc]
  | some path =>
    refine ⟨portText port ++ '/' :: trimEnd path, follows_port numeric (Or.inr ⟨_, rfl⟩), ?_⟩
    rw [endpointText, pathText, trim_append_cons front (by decide), List.append_assoc, List.append_assoc]

/-- No host without a colon starts an endpoint that reads as a URI already. -/
theorem not_scheme_of_plain {host after word : Text} (plain : ∀ c ∈ host, inHost c = true) (follows : Follows after)
    (letters : ∀ c ∈ word, inHost c = true) : ¬ word ++ "://".toList <+: host ++ after := by
  rintro ⟨rest, same⟩
  have cut := congrArg (List.dropWhile inHost) same
  rw [List.append_assoc, List.dropWhile_append_of_pos letters, List.dropWhile_append_of_pos plain] at cut
  cases follows with
  | nothing => simp [inHost] at cut
  | port d others digit =>
    simp [inHost] at cut
    exact digit cut.1.symm
  | path others => simp [inHost] at cut

theorem normalize_endpointText (https : Bool) {host : Text} {port : Option Text} (path : Option Text) (valid : IsHost host)
    (numeric : ∀ p, port = some p → IsPort p) :
    ∃ after, Follows after ∧
      normalizeEndpointUri (endpointText https host port path) .tls = "https://".toList ++ (host ++ after) := by
  obtain ⟨after, follows, trimmed⟩ := trim_endpointText https path valid numeric
  refine ⟨after, follows, ?_⟩
  cases https with
  | true =>
    have schemed : startsWith "https://".toList ("https://".toList ++ (host ++ after)) = true := rfl
    rw [normalizeEndpointUri, trimmed, schemeText, if_pos rfl]
    simp only [schemed, Bool.or_true, if_true]
  | false =>
    have bare : ∀ word : Text, word.all inHost = true → word.head? = some 'h' →
        startsWith (word ++ "://".toList) (host ++ after) = false := by
      intro word letters first
      rw [startsWith, Bool.eq_false_iff, ne_eq, List.isPrefixOf_iff_prefix]
      rcases valid.plain_or_ipv6 with plain | ⟨address, -, rfl⟩
      · exact not_scheme_of_plain (fun c member => (plain c member).1) follows (List.all_eq_true.mp letters)
      · obtain ⟨rest, rfl⟩ := List.head?_eq_some_iff.mp first
        simp
    have http : startsWith "http://".toList (host ++ after) = false := bare "http".toList (by decide) rfl
    have https : startsWith "https://".toList (host ++ after) = false := bare "https".toList (by decide) rfl
    have none : schemeText false = [] := rfl
    rw [normalizeEndpointUri, trimmed, none, List.nil_append]
    simp only [http, https, Bool.or_self, Bool.false_eq_true, if_false]

/-- The host is found exactly when it is there and is no bracketed address. -/
theorem derived_host_iff (https : Bool) (host : Text) (port path : Option Text) (valid : IsHost host)
    (numeric : ∀ p, port = some p → IsPort p) :
    deriveHostFromUri (normalizeEndpointUri (endpointText https host port path) .tls) = some host ↔
      host ≠ [] ∧ ∀ address, host ≠ '[' :: address ++ [']'] := by
  obtain ⟨after, follows, normalized⟩ := normalize_endpointText https path valid numeric
  rw [normalized, deriveHostFromUri_https, takeWhile_append_stop follows.stop]
  rcases valid.plain_or_ipv6 with plain | ⟨address, ipv6, rfl⟩
  · have whole : host.takeWhile inHost = host := List.takeWhile_eq_self_iff.mpr fun c member => (plain c member).1
    rw [whole]
    cases host with
    | nil => simp
    | cons c rest =>
      have first := (plain c (by simp)).2.1
      simp [first]
  · -- the address has a colon, and the host ends there
    constructor
    · intro found
      have colon : ':' ∈ ('[' :: address ++ [']']).takeWhile inHost := by
        split at found
        · cases found
        · rw [Option.some_inj.mp found]
          simp [ipv6.colon]
      exact absurd (List.mem_takeWhile_imp colon) (by decide)
    · intro named
      exact absurd rfl (named.2 address)

theorem loopback_host_lost :
    IsHost "[::1]".toList ∧ IsPort "50051".toList ∧
      deriveHostFromUri (normalizeEndpointUri (endpointText false "[::1]".toList (some "50051".toList) none) .tls) =
        some "[".toList := by
  refine ⟨.ipv6 (Or.inr ⟨[], ["1".toList], 1, rfl, by simp, Or.inl ⟨by decide, rfl⟩, by decide⟩), by decide, by decide⟩

theorem named_host_found :
    deriveHostFromUri (normalizeEndpointUri
      (endpointText true "svc-1.example".toList (some "8443".toList) (some "grpc://health ".toList)) .tls) =
        some "svc-1.example".toList :=
  (derived_host_iff true "svc-1.example".toList (some "8443".toList) (some "grpc://health ".toList) (.name (by decide))
    (fun p same => by obtain rfl := Option.some_inj.mp same; decide)).mpr ⟨by decide, by simp⟩

end HawkTui.Proofs.TlsHost
