/-
This file models the parser of HTTP requests.

The text is cut at its blank lines: what comes before the first one is the request
line and the headers, and what comes between it and the next one is the body. The
parser indexes the vectors that it gets from `Split` without looking at their sizes,
which is undefined where they are too short. The results of `String::Trim` are
dropped, so keys and values keep their blanks.
-/

import Luce.Http.StringUtil
import Mathlib.Logic.Function.Basic

namespace Luce.Http

open StringUtil

/-- A `std::unordered_map` from strings to strings. -/
abbrev StringMap := Bytes → Option Bytes

/-- What ends the server, or is undefined. -/
inductive Fault where
  /-- A vector is indexed behind its end. -/
  | vectorRange
  /-- `std::stoi` throws `std::invalid_argument` or `std::out_of_range`. -/
  | invalidArgument | outOfRange
  /-- A byte is written behind the storage of a buffer. -/
  | bufferEnd
deriving DecidableEq, Repr

theorem bind_eq_ok {Value Result : Type} {run : Except Fault Value}
    {next : Value → Except Fault Result} {result : Result} :
    run >>= next = .ok result ↔ ∃ value, run = .ok value ∧ next value = .ok result := by
  cases run with
  | error fault => exact ⟨nofun, nofun⟩
  | ok value => exact ⟨fun outcome => ⟨value, rfl, outcome⟩, fun ⟨_, same, outcome⟩ => by
      cases same
      exact outcome⟩

structure HttpRequest where
  method : Bytes
  url : Bytes
  uri : Bytes
  httpVersion : Bytes
  body : Bytes
  headers : StringMap
  urlParams : StringMap
  bodyParams : StringMap

/-- A request that has just been made. -/
def HttpRequest.new : HttpRequest :=
  ⟨[], [], [], [], [], fun _ => none, fun _ => none, fun _ => none⟩

def crlf : Bytes := ascii "\r\n"

def blankLine : Bytes := ascii "\r\n\r\n"

theorem crlf_ne_nil : crlf ≠ [] := by decide

theorem blankLine_ne_nil : blankLine ≠ [] := by decide

/-- `parts[index]`. -/
def element (parts : List Bytes) (index : Nat) : Except Fault Bytes :=
  match parts[index]? with
  | none => .error .vectorRange
  | some part => .ok part

/-- `map[key] = value` for two parts, and nothing for any other number of them. -/
def assignPair (map : StringMap) : List Bytes → StringMap
  | [key, value] => Function.update map key (some value)
  | _ => map

/-- The loop over the parameters of a URL or of a body. -/
def parseParams (map : StringMap) (text : Bytes) : StringMap :=
  (split text (ascii "&") (by decide) true).foldl
    (fun map param => assignPair map (split param (ascii "=") (by decide) true)) map

namespace HttpRequest

def parseURLParams (request : HttpRequest) (url : Bytes) : HttpRequest :=
  { request with urlParams := parseParams request.urlParams url }

def parseBody (request : HttpRequest) (body : Bytes) : HttpRequest :=
  { request with bodyParams := parseParams request.bodyParams body }

def parseLine (request : HttpRequest) (line : Bytes) : Except Fault HttpRequest := do
  let lineDatas := split line (ascii " ") (by decide) true
  let method ← element lineDatas 0
  let url ← element lineDatas 1
  let httpVersion ← element lineDatas 2
  let request := { request with method, url, httpVersion }
  match split url (ascii "&") (by decide) true with
  | [uri, params] => pure ({ request with uri }.parseURLParams params)
  | _ => pure { request with uri := url }

/-- One round of the loop of `ParseHeaders`. -/
def parseHeader (headers : StringMap) (header : Bytes) : StringMap :=
  if !header.isEmpty && contains header (ascii ":") then
    assignPair headers (split header (ascii ":") (by decide) false)
  else headers

/-- The first line is the request line. -/
def parseHeaders (request : HttpRequest) (lines : List Bytes) : HttpRequest :=
  { request with headers := lines.tail.foldl parseHeader request.headers }

def parse (request : HttpRequest) (data : Bytes) : Except Fault HttpRequest := do
  let headAndBody := split data blankLine blankLine_ne_nil true
  let body ← element headAndBody 1
  let request := if body.isEmpty then request else { request with body }
  let head ← element headAndBody 0
  let lineAndHead := split head crlf crlf_ne_nil false
  let line ← element lineAndHead 0
  let request ← request.parseLine line
  pure ((request.parseHeaders lineAndHead).parseBody body)

end HttpRequest

end Luce.Http
