/-
This file decides which bytes in the first read of a request the server survives.

The parser counts the parts of the text and of the request line, complains if the count is
wrong, and takes the parts all the same; and nothing catches what the conversion of the
declared length throws. So the server needs a blank line, three tokens in front of it, and
an `int` wherever a length is declared.
-/

import Luce.Http.RequestText

namespace Luce.Http

open StringUtil Library.Search Library.Lines

/-! ### The first read -/

/-- `Parse`, and the conversion of `Content-Length`, on the bytes of the first read. -/
def examine (chunk : Bytes) : Except Fault (HttpRequest × Option Int) := do
  let request ← HttpRequest.new.parse (cString chunk)
  match request.headers (ascii "Content-Length") with
  | none => pure (request, none)
  | some value => do
    let contentLen ← stoi value
    pure (request, some contentLen)

/-- The coroutine fails with what the examination fails with. -/
theorem Serving.step_examine (requests : List HttpRequest) {chunk : Bytes} (some : chunk ≠ [])
    (room : chunk.length < maxRequestSize) :
    step ⟨.waiting, requests⟩ chunk =
      match examine chunk with
      | .error fault => ⟨.failed fault, requests⟩
      | .ok (request, none) => serve ⟨.waiting, requests⟩ request
      | .ok (request, .some contentLen) => receive ⟨.waiting, requests⟩ request contentLen := by
  cases parsed : HttpRequest.new.parse (cString chunk) with
  | error fault =>
    simp only [step_malformed requests some room parsed, examine, parsed, bind, Except.bind]
  | ok request =>
  cases declares : request.headers (ascii "Content-Length") with
  | none =>
    simp only [step_bodyless requests some room parsed declares, examine, parsed, declares, bind,
      Except.bind, pure, Except.pure]
  | some value =>
  cases number : stoi value with
  | error fault =>
    simp only [step_undeclared requests some room parsed declares number, examine, parsed,
      declares, number, bind, Except.bind]
  | ok contentLen =>
    simp only [step_declared requests some room parsed declares number, examine, parsed, declares,
      number, bind, Except.bind, pure, Except.pure]

theorem examine_isOk_iff {chunk : Bytes} :
    (∃ result, examine chunk = .ok result) ↔ ∃ request,
      HttpRequest.new.parse (cString chunk) = .ok request ∧
        ∀ value, request.headers (ascii "Content-Length") = some value →
          ∃ number, stoi value = .ok number := by
  simp only [examine]
  cases HttpRequest.new.parse (cString chunk) with
  | error fault => exact ⟨nofun, nofun⟩
  | ok request =>
    simp only [bind, Except.bind, Except.ok.injEq, exists_eq_left']
    cases request.headers (ascii "Content-Length") with
    | none => exact ⟨fun _ => nofun, fun _ => ⟨_, rfl⟩⟩
    | some value =>
      simp only [Option.some.injEq, forall_eq']
      cases stoi value with
      | error fault => exact ⟨nofun, nofun⟩
      | ok contentLen => exact ⟨fun _ => ⟨_, rfl⟩, fun _ => ⟨_, rfl⟩⟩

/-! ### Lines -/

/-- The lines in front of the first blank line. -/
def headLines (text : Bytes) : List Bytes := split (before blankLine text) crlf crlf_ne_nil false

/-- The length that is declared last. -/
def declared (text : Bytes) : Option Bytes :=
  (headerAssignments (headLines text).tail).reverse.lookup (ascii "Content-Length")

/-- There is a blank line; the first line in front of it has two spaces; and what is declared
as a length is an `int`. -/
structure Wellformed (text : Bytes) : Prop where
  blank : blankLine <:+: text
  line : 2 ≤ ((headLines text).headD []).count (byte ' ')
  length : ∀ value, declared text = some value → ∃ number, readInteger value = some number ∧
    -2 ^ 31 ≤ number ∧ number < 2 ^ 31

theorem stoi_isOk_iff {value : Bytes} :
    (∃ number, stoi value = .ok number) ↔ ∃ number, readInteger value = some number ∧
      -2 ^ 31 ≤ number ∧ number < 2 ^ 31 := by
  rw [stoi]
  cases readInteger value with
  | none => simp
  | some number =>
    dsimp only
    split
    case isTrue range => simpa using range
    case isFalse wide => simpa using wide

/-- There are three tokens exactly if there are two spaces. -/
theorem tokens_iff {line : Bytes} :
    (∃ method url httpVersion more,
      split line (ascii " ") space_ne_nil true = method :: url :: httpVersion :: more) ↔
      2 ≤ line.count (byte ' ') := by
  by_cases empty : line = []
  · subst empty
    exact ⟨nofun, nofun⟩
  · have cut := cut_splitOn (byte ' ') line
    have parts : split line (ascii " ") space_ne_nil true = line.splitOn (byte ' ') :=
      split_of_cut space_ne_nil true cut empty
    have length := cut.length_singleton
    rw [parts]
    match pieces : line.splitOn (byte ' ') with
    | [] | [_] | [_, _] =>
      rw [pieces] at length
      simp only [List.length_cons, List.length_nil] at length
      exact ⟨nofun, fun two => by omega⟩
    | method :: url :: httpVersion :: more =>
      rw [pieces] at length
      simp only [List.length_cons] at length
      exact ⟨fun _ => by omega, fun _ => ⟨method, url, httpVersion, more, rfl⟩⟩

namespace Pieces

variable {text : Bytes} (pieces : Pieces text)

theorem headLines_eq : headLines text = pieces.line :: pieces.headers := by
  have front : before blankLine text = pieces.head :=
    (congrArg _ pieces.whole).trans (before_append pieces.ends pieces.rest)
  rw [headLines, front, pieces.lines]

theorem headers_declared :
    pieces.request.headers (ascii "Content-Length") = declared text := by
  rw [declared, pieces.headLines_eq]
  exact HttpRequest.foldl_parseHeader _ _

end Pieces

/-- The pieces are there exactly if there is a blank line with three tokens in front. -/
theorem exists_pieces_iff {text : Bytes} :
    Nonempty (Pieces text) ↔
      blankLine <:+: text ∧ 2 ≤ ((headLines text).headD []).count (byte ' ') := by
  constructor
  · rintro ⟨pieces⟩
    refine ⟨⟨pieces.head, pieces.rest, pieces.whole.symm⟩, ?_⟩
    rw [pieces.headLines_eq]
    exact tokens_iff.mp ⟨_, _, _, _, pieces.tokens⟩
  · rintro ⟨blank, spaces⟩
    obtain ⟨position, found⟩ : ∃ position, find blankLine text = some position :=
      Option.ne_none_iff_exists'.mp (find_eq_none_iff.not.mpr (not_not.mpr blank))
    obtain ⟨head, rest, whole, rfl, ends⟩ := eq_of_find found
    have front : before blankLine text = head :=
      (congrArg _ whole).trans (before_append ends rest)
    rw [headLines, front] at spaces
    match lines : split head crlf crlf_ne_nil false with
    | [] =>
      rw [lines] at spaces
      exact absurd spaces (by decide)
    | line :: headers =>
      rw [lines] at spaces
      obtain ⟨method, url, httpVersion, more, tokens⟩ := tokens_iff.mpr spaces
      exact ⟨⟨head, rest, line, headers, method, url, httpVersion, more, whole, ends, lines,
        tokens⟩⟩

/-- The server survives the first read exactly if it is well formed. -/
theorem examine_ok_iff (chunk : Bytes) :
    (∃ result, examine chunk = .ok result) ↔ Wellformed (cString chunk) := by
  rw [examine_isOk_iff]
  constructor
  · rintro ⟨request, parsed, length⟩
    obtain ⟨pieces, rfl⟩ := HttpRequest.parse_eq_ok_iff.mp parsed
    obtain ⟨blank, line⟩ := exists_pieces_iff.mp ⟨pieces⟩
    refine ⟨blank, line, fun value declares => stoi_isOk_iff.mp (length value ?_)⟩
    exact pieces.headers_declared.trans declares
  · rintro ⟨blank, line, length⟩
    obtain ⟨pieces⟩ := exists_pieces_iff.mpr ⟨blank, line⟩
    refine ⟨pieces.request, pieces.parse, fun value declares => stoi_isOk_iff.mpr ?_⟩
    exact length value (pieces.headers_declared.symm.trans declares)

theorem not_ok_of_isOk {chunk : Bytes} (failed : (examine chunk).isOk = false) :
    ¬ ∃ result, examine chunk = .ok result := by
  rintro ⟨result, ran⟩
  rw [ran] at failed
  cases failed

/-- No blank line; no request line; two tokens; no number: the server survives none of them. -/
theorem examine_malformed :
    (¬ ∃ result, examine (ascii "GET / HTTP/1.1\r\n") = .ok result) ∧
      (¬ ∃ result, examine (ascii "\r\n\r\n") = .ok result) ∧
      (¬ ∃ result, examine (ascii "GET /\r\n\r\n") = .ok result) ∧
      ¬ ∃ result, examine (ascii "GET / HTTP/1.1\r\nContent-Length:x\r\n\r\n") = .ok result :=
  ⟨not_ok_of_isOk (by decide), not_ok_of_isOk (by decide), not_ok_of_isOk (by decide),
    not_ok_of_isOk (by decide)⟩

end Luce.Http
