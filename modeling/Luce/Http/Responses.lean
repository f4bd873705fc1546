/-
This file decides which responses on one connection can be told apart.

A response is a head, a body and a line break, and nothing in its head says how long its body
is. So the bytes of two responses are also those of one, whose body holds the head of the
second; and a body that holds a head behind a line break makes one response look like two.
-/

import Luce.Http.HttpResponse
import Luce.Library.Lines

namespace Luce.Http

open Library.Search Library.Lines StringUtil

/-! ### The wire -/

/-- `SendResponse`, on a connection that takes all it is given. -/
def sendResponse (wire : Bytes) (response : HttpResponse) : Bytes × HttpResponse :=
  (wire ++ response.buffer, { response with buffer := [] })

/-- A response as a handler has prepared it, and the body that it sets. -/
structure Reply where
  iteration : Iteration
  response : HttpResponse
  body : Bytes

namespace Reply

def packet (reply : Reply) : Bytes := (reply.response.setBody reply.iteration reply.body).buffer

/-- What has been sent behind these bytes when the replies have been sent one after another. -/
def wire (before : Bytes) (replies : List Reply) : Bytes :=
  replies.foldl
    (fun wire reply =>
      (sendResponse wire (reply.response.setBody reply.iteration reply.body)).1) before

/-- `http_version_` comes from a request, `status_code_` is an `int`, and the handler puts no
line break into a header and leaves the length of the body alone. -/
structure Sendable (reply : Reply) : Prop where
  version : ∃ data request, HttpRequest.new.parse (cString data) = .ok request ∧
    reply.response.httpVersion = request.httpVersion
  status : Int32.minValue.toInt ≤ reply.response.statusCode ∧
    reply.response.statusCode ≤ Int32.maxValue.toInt
  distinct : (reply.response.headers.map Prod.fst).Nodup
  headers : ∀ header ∈ reply.response.headers,
    byte '\r' ∉ header.1 ++ header.2 ∧ byte '\n' ∉ header.1 ++ header.2
  lengthless : ascii "Content-Length" ∉ reply.response.headers.map Prod.fst

/-- The number of the replies and their bodies can be read off the wire. -/
def Distinguishable (replies : List Reply) : Prop :=
  ∀ others : List Reply, (∀ other ∈ others, other.Sendable) → wire [] replies = wire [] others →
    replies.length = others.length ∧ replies.map body = others.map body

/-! ### Heads -/

def statusLine (response : HttpResponse) : Bytes :=
  response.httpVersion ++ ascii " " ++ ascii (toString response.statusCode) ++ ascii " " ++
    HttpResponse.getCodeDescript response.statusCode

def headerLine (header : Bytes × Bytes) : Bytes := header.1 ++ ascii ":" ++ header.2

def lines (reply : Reply) : List Bytes :=
  statusLine reply.response :: (reply.iteration.order reply.response.headers).map headerLine

/-- Everything in front of the body. -/
def head (reply : Reply) : Bytes := block crlf reply.lines

/-- The body holds the head of some reply behind a line break. -/
def HoldsHead (reply : Reply) : Prop :=
  ∃ (front behind : Bytes) (other : Reply), other.Sendable ∧
    reply.body = front ++ crlf ++ other.head ++ behind

theorem packet_eq (reply : Reply) : reply.packet = reply.head ++ reply.body ++ crlf := by
  have heads : reply.head = statusLine reply.response ++ crlf ++
      HttpResponse.headerLines reply.iteration reply.response.headers ++ crlf := by
    simp only [head, block, text, lines, headerLine, HttpResponse.headerLines, List.flatMap_cons,
      List.flatMap_map, List.append_assoc]
  rw [heads]
  simp only [packet, HttpResponse.setBody, statusLine, List.append_assoc]

theorem wire_eq (before : Bytes) (replies : List Reply) :
    wire before replies = before ++ replies.flatMap packet := by
  induction replies generalizing before with
  | nil => exact (List.append_nil _).symm
  | cons reply replies inductionHypothesis =>
    exact (inductionHypothesis _).trans (List.append_assoc _ _ _)

theorem wire_cons (reply : Reply) (replies : List Reply) :
    wire [] (reply :: replies) = reply.head ++ reply.body ++ crlf ++ wire [] replies := by
  simp only [wire_eq, List.nil_append, List.flatMap_cons, packet_eq]

theorem wire_singleton (reply : Reply) : wire [] [reply] = reply.head ++ reply.body ++ crlf :=
  (wire_cons reply []).trans (List.append_nil _)

end Reply

/-! ### Line breaks -/

/-- A line without a line break is closed by the one behind it. -/
theorem closed_of_unbroken {line : Bytes} (clean : ¬ crlf <:+: line) : Closed crlf line := by
  induction line with
  | nil => exact closed_nil crlf
  | cons first rest inductionHypothesis =>
    rw [List.infix_cons_iff, not_or] at clean
    have apart : ¬ crlf <+: first :: (rest ++ crlf) := by
      rintro ⟨behind, starts⟩
      cases rest with
      | nil =>
        -- behind the line there is a carriage return first
        cases starts
      | cons second more =>
        cases starts
        exact clean.1 ⟨more, rfl⟩
    rw [Closed, List.cons_append, find, if_neg apart, inductionHypothesis clean.2]
    rfl

/-- Text without a line feed adds no line break. -/
theorem not_infix_append {front behind : Bytes} (clean : ¬ crlf <:+: front)
    (noFeed : byte '\n' ∉ behind) : ¬ crlf <:+: front ++ behind := by
  induction front with
  | nil => exact fun inside => noFeed (inside.subset (by decide))
  | cons first rest inductionHypothesis =>
    rw [List.infix_cons_iff, not_or] at clean
    rw [List.cons_append, List.infix_cons_iff, not_or]
    refine ⟨?_, inductionHypothesis clean.2⟩
    rintro ⟨more, starts⟩
    cases rest with
    | nil =>
      have second : (byte '\n' :: more) = behind := (List.cons.inj starts).2
      exact noFeed (second ▸ List.mem_cons_self ..)
    | cons second others =>
      cases starts
      exact clean.1 ⟨others, rfl⟩

theorem mem_of_element {parts : List Bytes} {index : Nat} {part : Bytes}
    (found : element parts index = .ok part) : part ∈ parts := by
  rw [element] at found
  split at found
  · cases found
  · cases found
    exact List.mem_of_getElem? ‹_›

theorem HttpRequest.parseLine_httpVersion {request parsed : HttpRequest} {line : Bytes}
    (ran : request.parseLine line = .ok parsed) : parsed.httpVersion <:+: line := by
  obtain ⟨method, -, ran⟩ := bind_eq_ok.mp ran
  obtain ⟨url, -, ran⟩ := bind_eq_ok.mp ran
  obtain ⟨httpVersion, found, ran⟩ := bind_eq_ok.mp ran
  have stands := (of_mem_split (mem_of_element found)).1
  split at ran <;> cases ran <;> exact stands

/-- The version of a request is cut out of one of its lines. -/
theorem HttpRequest.parse_httpVersion {request parsed : HttpRequest} {data : Bytes}
    (ran : request.parse data = .ok parsed) : ¬ crlf <:+: parsed.httpVersion := by
  obtain ⟨body, -, ran⟩ := bind_eq_ok.mp ran
  obtain ⟨head, -, ran⟩ := bind_eq_ok.mp ran
  obtain ⟨line, found, ran⟩ := bind_eq_ok.mp ran
  obtain ⟨named, parsedLine, ran⟩ := bind_eq_ok.mp ran
  cases ran
  have stands : named.httpVersion <:+: line := HttpRequest.parseLine_httpVersion parsedLine
  have clean := (of_mem_split (mem_of_element found)).2
  exact fun inside => clean (inside.trans stands)

theorem not_mem_getCodeDescript (statusCode : Int) :
    byte '\n' ∉ HttpResponse.getCodeDescript statusCode := by
  unfold HttpResponse.getCodeDescript
  split <;> decide

/-- A number is written with digits and perhaps a sign. -/
theorem eq_or_isDigit_of_mem {number : Int} {character : Char}
    (member : character ∈ (toString number).toList) : character = '-' ∨ character.isDigit := by
  have written : ∀ value : Nat, character ∈ (Nat.repr value).toList → character.isDigit := by
    intro value among
    rw [Nat.toList_repr] at among
    exact Nat.isDigit_of_mem_toDigits (by decide) (by decide) among
  rw [Int.toString_eq_repr, Int.repr_eq_if] at member
  split at member
  · exact .inr (written _ member)
  · rw [String.toList_append, List.mem_append] at member
    exact member.imp List.mem_singleton.mp (written _)

theorem not_mem_toString (statusCode : Int) : byte '\n' ∉ ascii (toString statusCode) := by
  intro among
  obtain ⟨character, member, same⟩ := List.mem_map.mp among
  cases eq_or_isDigit_of_mem member with
  | inl sign => exact absurd same (sign ▸ by decide)
  | inr digit =>
    have bounds := Char.isDigit_iff_toNat.mp digit
    have value := congrArg UInt8.toNat same
    simp only [byte, UInt8.toNat_ofNat'] at value
    have : '\n'.toNat = 10 := rfl
    have : '0'.toNat = 48 := rfl
    have : '9'.toNat = 57 := rfl
    omega

namespace Reply

variable {reply other : Reply}

theorem Sendable.closed (sendable : reply.Sendable) :
    ∀ line ∈ reply.lines, Closed crlf line ∧ line ≠ [] := by
  refine List.forall_mem_cons.mpr ⟨⟨closed_of_unbroken ?_, by simp [statusLine, ascii]⟩, ?_⟩
  · obtain ⟨data, request, parsed, same⟩ := sendable.version
    have clean := HttpRequest.parse_httpVersion parsed
    rw [← same] at clean
    simp only [statusLine, List.append_assoc]
    refine not_infix_append clean ?_
    simp only [List.mem_append, not_or]
    exact ⟨by decide, not_mem_toString _, by decide, not_mem_getCodeDescript _⟩
  · intro line among
    obtain ⟨header, member, rfl⟩ := List.mem_map.mp among
    have clean := (sendable.headers header ((reply.iteration.perm _).mem_iff.mp member)).2
    rw [List.mem_append, not_or] at clean
    refine ⟨closed_of_unbroken ?_, by simp [headerLine, ascii]⟩
    have noFeed : byte '\n' ∉ headerLine header := by
      simp only [headerLine, List.mem_append, not_or]
      exact ⟨⟨clean.1, by decide⟩, clean.2⟩
    exact fun inside => noFeed (inside.subset (by decide))

/-- What is sent decides its head. -/
theorem head_inj (sendable : reply.Sendable) (otherSendable : other.Sendable) {rest more : Bytes}
    (same : reply.head ++ rest = other.head ++ more) : rest = more :=
  (block_inj sendable.closed otherSendable.closed same).2

/-- The body is none of the handler's promises. -/
theorem Sendable.withBody (sendable : reply.Sendable) (body : Bytes) :
    { reply with body }.Sendable :=
  ⟨sendable.version, sendable.status, sendable.distinct, sendable.headers, sendable.lengthless⟩

/-- Replies start with a head and end in a line break. -/
theorem exists_wire_eq (reply : Reply) (replies : List Reply) :
    ∃ behind, wire [] (reply :: replies) = reply.head ++ behind ++ crlf := by
  induction replies generalizing reply with
  | nil => exact ⟨reply.body, wire_singleton reply⟩
  | cons next replies inductionHypothesis =>
    obtain ⟨behind, rest⟩ := inductionHypothesis next
    refine ⟨reply.body ++ crlf ++ next.head ++ behind, ?_⟩
    rw [wire_cons, rest]
    simp only [List.append_assoc]

/-- The bytes of several replies are those of one. -/
theorem exists_merged (first second : Reply) (replies : List Reply) :
    ∃ body, wire [] [{ first with body }] = wire [] (first :: second :: replies) := by
  obtain ⟨behind, rest⟩ := exists_wire_eq second replies
  refine ⟨first.body ++ crlf ++ (second.head ++ behind), ?_⟩
  rw [wire_singleton, wire_cons, rest]
  simp only [head, lines, List.append_assoc]

/-- The bytes of one reply whose body holds a head are those of two. -/
theorem HoldsHead.exists_split (holds : reply.HoldsHead) :
    ∃ (front behind : Bytes) (other : Reply), other.Sendable ∧
      wire [] [{ reply with body := front }, { other with body := behind }] = wire [] [reply] := by
  obtain ⟨front, behind, other, sendable, held⟩ := holds
  refine ⟨front, behind, other, sendable, ?_⟩
  rw [wire_cons, wire_singleton, wire_singleton, held]
  simp only [head, lines, List.append_assoc]

/-- A reply whose bytes are those of several holds the head of the second. -/
theorem HoldsHead.of_wire_eq {first second : Reply} {replies : List Reply}
    (sendable : reply.Sendable) (firstSendable : first.Sendable) (secondSendable : second.Sendable)
    (same : wire [] [reply] = wire [] (first :: second :: replies)) : reply.HoldsHead := by
  obtain ⟨behind, rest⟩ := exists_wire_eq second replies
  rw [wire_singleton, wire_cons, rest] at same
  simp only [List.append_assoc] at same
  have bodies := head_inj sendable firstSendable same
  have held : reply.body ++ crlf = first.body ++ crlf ++ second.head ++ behind ++ crlf := by
    simpa only [List.append_assoc] using bodies
  exact ⟨first.body, behind, second, secondSendable, List.append_cancel_right held⟩

/-- A reply whose bytes are those of another has its body. -/
theorem body_eq_of_wire_eq (sendable : reply.Sendable) (otherSendable : other.Sendable)
    (same : wire [] [reply] = wire [] [other]) : reply.body = other.body := by
  simp only [wire_singleton, List.append_assoc] at same
  exact List.append_cancel_right (head_inj sendable otherSendable same)

/-- Some bytes are sent for some replies. -/
theorem wire_ne_nil (reply : Reply) (replies : List Reply) : wire [] (reply :: replies) ≠ [] := by
  obtain ⟨behind, some⟩ := exists_wire_eq reply replies
  exact some ▸ List.append_ne_nil_of_right_ne_nil _ crlf_ne_nil

/-- Bodies without a line break are told apart among themselves. -/
theorem map_body_eq_of_wire_eq {sent others : List Reply}
    (plain : ∀ reply ∈ sent, reply.Sendable ∧ ¬ crlf <:+: reply.body)
    (othersPlain : ∀ other ∈ others, other.Sendable ∧ ¬ crlf <:+: other.body)
    (same : wire [] sent = wire [] others) : sent.map body = others.map body := by
  induction sent generalizing others with
  | nil =>
    cases others with
    | nil => rfl
    | cons other others => exact absurd same.symm (wire_ne_nil other others)
  | cons reply replies inductionHypothesis =>
    cases others with
    | nil => exact absurd same (wire_ne_nil reply replies)
    | cons other others =>
      obtain ⟨⟨sendable, clean⟩, later⟩ := List.forall_mem_cons.mp plain
      obtain ⟨⟨otherSendable, otherClean⟩, otherLater⟩ := List.forall_mem_cons.mp othersPlain
      simp only [wire_cons, List.append_assoc] at same
      have bodies := head_inj sendable otherSendable same
      simp only [← List.append_assoc] at bodies
      obtain ⟨front, behind⟩ :=
        (closed_of_unbroken clean).inj (closed_of_unbroken otherClean) bodies
      rw [List.map_cons, List.map_cons, front, inductionHypothesis later otherLater behind]

/-- One reply, or none, is told apart if its body does not hold a head, and nothing else is. -/
theorem distinguishable_iff (sent : List Reply) (sendable : ∀ reply ∈ sent, reply.Sendable) :
    Distinguishable sent ↔ sent = [] ∨ ∃ reply, sent = [reply] ∧ ¬ reply.HoldsHead := by
  match sent with
  | [] =>
    refine iff_of_true (fun others _ same => ?_) (.inl rfl)
    cases others with
    | nil => exact ⟨rfl, rfl⟩
    | cons other others => exact absurd same.symm (wire_ne_nil other others)
  | [reply] =>
    have own : reply.Sendable := sendable reply (List.mem_singleton_self reply)
    constructor
    · intro distinguishable
      refine .inr ⟨reply, rfl, fun holds => ?_⟩
      obtain ⟨front, behind, other, otherSendable, same⟩ := holds.exists_split
      have halves := List.forall_mem_cons.mpr
        ⟨own.withBody front, List.forall_mem_singleton.mpr (otherSendable.withBody behind)⟩
      exact absurd (distinguishable _ halves same.symm).1 (by simp)
    · rintro (none | ⟨_, only, clean⟩)
      · cases none
      cases only
      intro others othersSendable same
      match others with
      | [] => exact absurd same (wire_ne_nil reply [])
      | [other] =>
        have their := othersSendable other (List.mem_singleton_self other)
        exact ⟨rfl, congrArg (fun body => [body]) (body_eq_of_wire_eq own their same)⟩
      | first :: second :: others =>
        obtain ⟨firstSendable, later⟩ := List.forall_mem_cons.mp othersSendable
        have secondSendable := later second (List.mem_cons_self ..)
        exact absurd (.of_wire_eq own firstSendable secondSendable same) clean
  | first :: second :: replies =>
    refine iff_of_false (fun distinguishable => ?_) ?_
    · obtain ⟨body, same⟩ := exists_merged first second replies
      have own := (sendable first (List.mem_cons_self ..)).withBody body
      have lengths := (distinguishable _ (List.forall_mem_singleton.mpr own) same.symm).1
      simp at lengths
    · rintro (none | ⟨_, only, -⟩)
      · cases none
      · cases only

/-- The reply to a client that asks for nothing in particular. -/
def plain (body : Bytes) : Reply where
  iteration := ⟨id, fun _ => .refl _⟩
  response := ⟨[], 200, ascii "HTTP/1.1", []⟩
  body := body

theorem plain_sendable (body : Bytes) : (plain body).Sendable where
  version := ⟨ascii "GET / HTTP/1.1\r\n\r\n", _, rfl, rfl⟩
  status := by simp only [plain]; decide
  distinct := List.nodup_nil
  headers := fun _ none => nomatch none
  lengthless := List.not_mem_nil

theorem distinguishable_plain : Distinguishable [plain (ascii "a")] := by
  refine (distinguishable_iff _ (List.forall_mem_singleton.mpr (plain_sendable _))).mpr
    (.inr ⟨_, rfl, ?_⟩)
  rintro ⟨front, behind, other, -, held⟩
  -- one byte is no line break
  have length := congrArg List.length held
  simp [plain, ascii, crlf] at length
  omega

/-- Two replies, and one whose body holds the second. -/
theorem not_distinguishable_plain :
    (∀ body, (plain body).Sendable) ∧
    wire [] [plain (ascii "a"), plain (ascii "b")] =
      wire [] [plain (ascii "a\r\nHTTP/1.1 200 OK\r\n\r\nb")] ∧
    ¬ Distinguishable [plain (ascii "a"), plain (ascii "b")] := by
  have same : wire [] [plain (ascii "a"), plain (ascii "b")] =
      wire [] [plain (ascii "a\r\nHTTP/1.1 200 OK\r\n\r\nb")] := by decide
  refine ⟨plain_sendable, same, fun distinguishable => ?_⟩
  exact absurd (distinguishable _ (List.forall_mem_singleton.mpr (plain_sendable _)) same).1
    (by decide)

end Reply

end Luce.Http
