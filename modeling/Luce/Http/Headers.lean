/-
This file decides which header lines are stored as they are meant.

A line is cut at each of its colons and is stored only if there is one word behind its name
that is not empty, so a port number takes its line with it; and nothing takes the blanks off
a word. What the line means is all that stands behind its first colon, without the blanks.
-/

import Luce.Http.RequestText
import Mathlib.Data.List.DropRight

namespace Luce.Http

open StringUtil Library.Lines

/-- A header line: a name, and what stands behind the colon. -/
structure Header where
  name : Bytes
  raw : Bytes
  named : name ≠ [] ∧ byte ':' ∉ name ∧ byte ' ' ∉ name ∧ Unbroken name
  unbroken : Unbroken raw

/-- A text without the blanks at its ends. -/
def trimmed (text : Bytes) : Bytes :=
  (text.dropWhile (· = byte ' ')).rdropWhile (· = byte ' ')

/-- One word, with no colon and no blanks around it. -/
def Tidy (raw : Bytes) : Prop :=
  raw ≠ [] ∧ byte ':' ∉ raw ∧ raw.head? ≠ some (byte ' ') ∧ raw.getLast? ≠ some (byte ' ')

theorem trimmed_eq_iff {text : Bytes} :
    trimmed text = text ↔ text.head? ≠ some (byte ' ') ∧ text.getLast? ≠ some (byte ' ') := by
  have front : text.dropWhile (· = byte ' ') = text ↔ text.head? ≠ some (byte ' ') := by
    rw [List.dropWhile_eq_self_iff]
    cases text <;> simp
  have back : text.rdropWhile (· = byte ' ') = text ↔ text.getLast? ≠ some (byte ' ') := by
    rw [List.rdropWhile_eq_self_iff]
    cases text using List.reverseRecOn <;> simp
  constructor
  · intro same
    have whole : text.length ≤ (text.dropWhile (· = byte ' ')).length := by
      calc text.length = (trimmed text).length := by rw [same]
        _ ≤ _ := (List.rdropWhile_prefix _ _).length_le
    have first := (List.dropWhile_suffix (· = byte ' ')).eq_of_length_le whole
    rw [trimmed, first] at same
    exact ⟨front.mp first, back.mp same⟩
  · rintro ⟨first, last⟩
    rw [trimmed, front.mpr first, back.mpr last]

/-- Nothing but blanks is taken off. -/
theorem mem_trimmed {char : Byte} {text : Bytes} (member : char ∈ text) (apart : char ≠ byte ' ') :
    char ∈ trimmed text := by
  have dropped {text : Bytes} (member : char ∈ text) : char ∈ text.dropWhile (· = byte ' ') := by
    rw [← List.takeWhile_append_dropWhile (p := (· = byte ' ')) (l := text),
      List.mem_append] at member
    refine member.resolve_left fun taken => apart ?_
    simpa using List.mem_takeWhile_imp taken
  exact List.mem_reverse.mpr (dropped (List.mem_reverse.mpr (dropped member)))

/-- The only word is the trimmed text exactly if the text is tidy. -/
theorem words_eq_trimmed_iff {raw : Bytes} : words raw = [trimmed raw] ↔ Tidy raw := by
  have plain (absent : byte ':' ∉ raw) : words raw = [raw].filter (!·.isEmpty) := by
    rw [words, List.splitOn_eq_singleton absent]
  constructor
  · intro same
    have among : trimmed raw ∈ words raw := by
      rw [same]
      exact List.mem_singleton_self _
    obtain ⟨part, some⟩ := List.mem_filter.mp among
    have absent : byte ':' ∉ raw := fun member =>
      (cut_splitOn _ _).absent part (mem_trimmed member (by decide))
    rw [plain absent] at among same
    obtain ⟨whole, -⟩ := List.mem_filter.mp among
    have tight := List.mem_singleton.mp whole
    rw [tight] at some
    exact ⟨by simpa using some, absent, trimmed_eq_iff.mp tight⟩
  · rintro ⟨some, absent, ends⟩
    rw [plain absent, trimmed_eq_iff.mpr ends]
    simp [some]

namespace Header

def line (header : Header) : Bytes := header.name ++ ascii ":" ++ header.raw

/-- The line makes an entry under its name. -/
def Kept (header : Header) : Prop :=
  ∃ value, ∀ map, HttpRequest.parseHeader map header.line =
    Function.update map header.name (some value)

variable (header : Header)

theorem line_ne_nil : header.line ≠ [] := by simp [line, ascii]

theorem line_unbroken : Unbroken header.line := by
  obtain ⟨-, -, -, return_, feed⟩ := header.named
  simp only [Unbroken, line, List.mem_append, not_or]
  exact ⟨⟨⟨return_, by decide⟩, header.unbroken.1⟩, ⟨⟨feed, by decide⟩, header.unbroken.2⟩⟩

/-- The name is the first word, as it has no colon. -/
theorem words_line : words header.line = header.name :: words header.raw := by
  obtain ⟨some, absent, -⟩ := header.named
  have parts : header.line.splitOn (byte ':') =
      header.name :: header.raw.splitOn (byte ':') := by
    rw [line, List.append_assoc]
    exact List.splitOn_append_cons_self_of_not_mem absent _
  rw [words, parts, List.filter_cons_of_pos (by simpa using some), words]

theorem pairOf_line {word : Bytes} (one : words header.raw = [word]) :
    pairOf (words header.line) = some (header.name, word) := by
  rw [words_line, one]
  rfl

theorem kept_iff : header.Kept ↔ (words header.raw).length = 1 := by
  constructor
  · rintro ⟨value, stored⟩
    have entry := congrFun (stored fun _ => none) header.name
    rw [HttpRequest.parseHeader_eq, words_line, Function.update_self] at entry
    match only : words header.raw with
    | [word] => rfl
    | [] | _ :: _ :: _ =>
      rw [only] at entry
      cases entry
  · intro one
    obtain ⟨word, only⟩ := List.length_eq_one_iff.mp one
    refine ⟨word, fun map => ?_⟩
    rw [HttpRequest.parseHeader_eq, words_line, only]
    rfl

end Header

/-- A request with these headers. -/
def RequestHead.withHeaders (head : RequestHead) (headers : List Header) : RequestHead :=
  { head with
    headers := headers.map Header.line
    lines := fun line member => by
      obtain ⟨header, -, rfl⟩ := List.mem_map.mp member
      exact ⟨header.line_ne_nil, header.line_unbroken⟩ }

/-- The names, and what stands behind them. -/
def entries (headers : List Header) : List (Bytes × Bytes) :=
  headers.map fun header => (header.name, header.raw)

/-- No line is dropped, and what is found under its name is the value in the last line with
that name. -/
def Stored (head : RequestHead) (headers : List Header) (rest : Bytes) : Prop :=
  ∃ request, HttpRequest.new.parse ((head.withHeaders headers).text ++ rest) = .ok request ∧
    ∀ header ∈ headers, header.Kept ∧
      request.headers header.name = some (trimmed (lastValue (entries headers) header.name))

theorem lookup_map {Value Other : Type} (list : List (Bytes × Value)) (next : Value → Other)
    (key : Bytes) :
    (list.map fun pair => (pair.1, next pair.2)).lookup key = (list.lookup key).map next := by
  induction list with
  | nil => rfl
  | cons pair list inductionHypothesis =>
    rw [List.map_cons, List.lookup_cons, List.lookup_cons, inductionHypothesis]
    split <;> rfl

/-- There is a last line with the name. -/
theorem exists_last {headers : List Header} {header : Header} (among : header ∈ headers) :
    ∃ last ∈ headers, (entries headers).reverse.lookup header.name = some last.raw := by
  have named : header.name ∈ (entries headers).map Prod.fst :=
    List.mem_map_of_mem (f := Prod.fst) (List.mem_map_of_mem among)
  obtain ⟨raw, member, found⟩ := exists_lastValue named
  obtain ⟨last, one, same⟩ := List.mem_map.mp member
  obtain ⟨-, rfl⟩ := Prod.mk.inj same
  exact ⟨last, one, found⟩

/-- The first word of a text, if there is one. -/
def word (text : Bytes) : Bytes := (words text).headD []

/-- Where each line is kept, each makes an entry of the word in it. -/
theorem headerAssignments_lines {headers : List Header}
    (kept : ∀ header ∈ headers, (words header.raw).length = 1) :
    headerAssignments (headers.map Header.line) =
      (entries headers).map fun entry => (entry.1, word entry.2) := by
  have each : ∀ header ∈ headers, pairOf (words header.line) =
      some (header.name, word header.raw) := by
    intro header among
    obtain ⟨first, only⟩ := List.length_eq_one_iff.mp (kept header among)
    rw [header.pairOf_line only, word, only]
    rfl
  rw [headerAssignments, List.filterMap_map, entries, List.map_map]
  exact (List.filterMap_congr each).trans (congrFun List.filterMap_eq_map' headers)

/-- What is found under a name that has a kept line is the value exactly if it is tidy. -/
theorem found_iff {headers : List Header} {header : Header}
    (kept : ∀ header ∈ headers, (words header.raw).length = 1) (among : header ∈ headers) :
    (headerAssignments (headers.map Header.line)).reverse.lookup header.name =
        some (trimmed (lastValue (entries headers) header.name)) ↔
      Tidy (lastValue (entries headers) header.name) := by
  obtain ⟨last, one, found⟩ := exists_last among
  obtain ⟨first, only⟩ := List.length_eq_one_iff.mp (kept last one)
  have value : lastValue (entries headers) header.name = last.raw := by
    rw [lastValue, found]
    rfl
  rw [headerAssignments_lines kept, ← List.map_reverse, lookup_map, found, value,
    ← words_eq_trimmed_iff, Option.map_some, word, only]
  simp

/-- Header lines are stored as they are meant exactly if there is one word in each of them
and nothing but that word in the last one of each name. -/
theorem headers_stored_iff (head : RequestHead) (headers : List Header) (rest : Bytes) :
    Stored head headers rest ↔
      (∀ header ∈ headers, (words header.raw).length = 1) ∧
        ∀ header ∈ headers, Tidy (lastValue (entries headers) header.name) := by
  have ran := ((head.withHeaders headers).pieces rest).parse
  have fields := HttpRequest.foldl_parseHeader (headers.map Header.line)
  constructor
  · rintro ⟨request, parsed, stored⟩
    cases ran.symm.trans parsed
    have kept : ∀ header ∈ headers, (words header.raw).length = 1 :=
      fun header among => header.kept_iff.mp (stored header among).1
    refine ⟨kept, fun header among => (found_iff kept among).mp ?_⟩
    exact (fields header.name).symm.trans (stored header among).2
  · rintro ⟨kept, tidy⟩
    refine ⟨_, ran, fun header among => ⟨header.kept_iff.mpr (kept header among), ?_⟩⟩
    exact (fields header.name).trans ((found_iff kept among).mpr (tidy header among))

/-- The head of a request for the start page. -/
def startPage : RequestHead where
  method := ascii "GET"
  url := ascii "/"
  version := ascii "HTTP/1.1"
  headers := []
  tokens := by decide
  lines := no_lines

/-- A header whose value has a colon. -/
def host : Header where
  name := ascii "Host"
  raw := ascii " localhost:8080"
  named := by decide
  unbroken := by decide

/-- The line with the host is dropped. -/
theorem host_dropped : ¬ Stored startPage [host] [] := by
  rintro ⟨request, -, stored⟩
  have one := host.kept_iff.mp (stored host (List.mem_cons_self ..)).1
  exact absurd one (by decide)

end Luce.Http
