/-
This file says what the parser makes of the text of a request.

The parser succeeds exactly if the text has a blank line with a request line of at least
three tokens in front of it, and then the request is made up of the pieces of the text. A
request that is written out of its tokens, header lines and body has these for its pieces,
so a form that is sent as a body is read back.
-/

import Luce.Http.HttpResponse
import Luce.Http.Segmentation

namespace Luce.Http

open StringUtil Library.Search Library.Lines

theorem ampersand_ne_nil : ascii "&" ≠ [] := by decide

theorem equals_ne_nil : ascii "=" ≠ [] := by decide

theorem space_ne_nil : ascii " " ≠ [] := by decide

theorem colon_ne_nil : ascii ":" ≠ [] := by decide

/-! ### Assignments -/

/-- Two parts are a key and its value. -/
def pairOf : List Bytes → Option (Bytes × Bytes)
  | [key, value] => some (key, value)
  | _ => none

/-- Of the values that are assigned to a key the last one stays. -/
theorem foldl_assignPair (map : StringMap) (lists : List (List Bytes)) (key : Bytes) :
    lists.foldl assignPair map key =
      ((lists.filterMap pairOf).reverse.lookup key).or (map key) := by
  induction lists generalizing map with
  | nil => rfl
  | cons parts lists inductionHypothesis =>
    rw [List.foldl_cons, inductionHypothesis, List.filterMap_cons]
    match parts with
    | [name, value] =>
      simp only [pairOf, assignPair, List.reverse_cons, List.lookup_append, List.lookup_singleton,
        Function.update_apply, beq_iff_eq, Option.or_assoc]
      split <;> rfl
    | [] | [_] | _ :: _ :: _ :: _ => rfl

/-- The last value that is given for a key, or nothing. -/
def lastValue (pairs : List (Bytes × Bytes)) (key : Bytes) : Bytes :=
  (pairs.reverse.lookup key).getD []

/-- The last value is one of those that are given for the key. -/
theorem exists_lastValue {pairs : List (Bytes × Bytes)} {key : Bytes}
    (among : key ∈ pairs.map Prod.fst) :
    ∃ value, (key, value) ∈ pairs ∧ pairs.reverse.lookup key = some value := by
  obtain ⟨pair, member, rfl⟩ := List.mem_map.mp among
  have present : (pairs.reverse.lookup pair.1).isSome :=
    List.lookup_isSome_iff.mpr ⟨pair, List.mem_reverse.mpr member, beq_self_eq_true _⟩
  obtain ⟨value, found⟩ := Option.isSome_iff_exists.mp present
  obtain ⟨front, behind, whole, -⟩ := List.lookup_eq_some_iff.mp found
  refine ⟨value, List.mem_reverse.mp ?_, found⟩
  rw [whole]
  exact List.mem_append_right _ (List.mem_cons_self ..)

/-- The assignments in the parameters of a text. -/
def assignments (text : Bytes) : List (Bytes × Bytes) :=
  (split text (ascii "&") ampersand_ne_nil true).filterMap
    fun param => pairOf (split param (ascii "=") equals_ne_nil true)

theorem HttpRequest.params_eq (text key : Bytes) :
    params text key = (assignments text).reverse.lookup key := by
  have folded := foldl_assignPair (fun _ => none)
    ((split text (ascii "&") ampersand_ne_nil true).map
      (split · (ascii "=") equals_ne_nil true)) key
  rw [List.foldl_map, List.filterMap_map, Option.or_none] at folded
  exact folded

/-- What is between the colons of a text, where there is anything. -/
def words (text : Bytes) : List Bytes := (text.splitOn (byte ':')).filter (!·.isEmpty)

/-- The test in front of the assignment changes nothing. -/
theorem HttpRequest.parseHeader_eq (map : StringMap) (header : Bytes) :
    parseHeader map header = assignPair map (words header) := by
  rw [parseHeader]
  split
  case isTrue => exact congrArg (assignPair map) (split_singleton header)
  case isFalse unassigned =>
    have lonely : words header = [header].filter (!·.isEmpty) := by
      rw [words, List.splitOn_eq_singleton]
      intro member
      have some : header ≠ [] := List.ne_nil_of_mem member
      have found := (contains_iff colon_ne_nil).mpr (infix_singleton_iff.mpr member)
      exact unassigned (by simp [some, found])
    rw [lonely]
    cases header <;> rfl

/-- The assignments in header lines. -/
def headerAssignments (lines : List Bytes) : List (Bytes × Bytes) :=
  lines.filterMap fun line => pairOf (words line)

theorem HttpRequest.foldl_parseHeader (lines : List Bytes) (key : Bytes) :
    lines.foldl parseHeader (fun _ => none) key = (headerAssignments lines).reverse.lookup key := by
  have folded := foldl_assignPair (fun _ => none) (lines.map words) key
  rw [List.foldl_map, List.filterMap_map, Option.or_none] at folded
  rw [funext fun map => funext (parseHeader_eq map)]
  exact folded

/-- The text of a parameter. -/
def paramText (pair : Bytes × Bytes) : Bytes := join [pair.1, pair.2] (ascii "=")

/-- Parameters with an ampersand between them. -/
def formText (pairs : List (Bytes × Bytes)) : Bytes := join (pairs.map paramText) (ascii "&")

/-- Neither a key nor a value ends at a character in it. -/
def Plain (pair : Bytes × Bytes) : Prop :=
  ∀ text ∈ [pair.1, pair.2], byte '&' ∉ text ∧ byte '=' ∉ text

theorem paramText_eq (pair : Bytes × Bytes) : paramText pair = pair.1 ++ ascii "=" ++ pair.2 := by
  simp [paramText, join, List.intercalate_cons_cons]

theorem paramText_ne_nil (pair : Bytes × Bytes) : paramText pair ≠ [] := by
  simp [paramText_eq, ascii]

theorem not_mem_paramText {pair : Bytes × Bytes} (plain : Plain pair) :
    byte '&' ∉ paramText pair :=
  not_mem_intercalate (by decide) fun text among => (plain text among).1

theorem split_paramText {pair : Bytes × Bytes} (plain : Plain pair) :
    split (paramText pair) (ascii "=") equals_ne_nil true = [pair.1, pair.2] :=
  split_join (List.cons_ne_nil _ _) (fun text among => (plain text among).2)
    (paramText_ne_nil pair)

theorem split_formText {pairs : List (Bytes × Bytes)} (plain : ∀ pair ∈ pairs, Plain pair) :
    split (formText pairs) (ascii "&") ampersand_ne_nil true = pairs.map paramText := by
  by_cases empty : pairs = []
  · rw [empty]
    rfl
  have absent : ∀ param ∈ pairs.map paramText, byte '&' ∉ param := by
    intro param member
    obtain ⟨pair, among, rfl⟩ := List.mem_map.mp member
    exact not_mem_paramText (plain pair among)
  obtain ⟨pair, others, rfl⟩ := List.exists_cons_of_ne_nil empty
  exact split_join (List.cons_ne_nil _ _) absent
    (join_ne_nil (List.mem_cons_self ..) (paramText_ne_nil pair) absent)

theorem formText_singleton (pair : Bytes × Bytes) : formText [pair] = paramText pair := by
  rw [formText, join]
  exact List.intercalate_singleton

/-- What is written as a form is assigned. -/
theorem assignments_formText {pairs : List (Bytes × Bytes)}
    (plain : ∀ pair ∈ pairs, Plain pair) : assignments (formText pairs) = pairs := by
  have same : ∀ pair ∈ pairs,
      pairOf (split (paramText pair) (ascii "=") equals_ne_nil true) = some pair := by
    intro pair among
    rw [split_paramText (plain pair among)]
    rfl
  rw [assignments, split_formText plain, List.filterMap_map]
  exact (List.filterMap_congr same).trans List.filterMap_some

/-! ### The pieces of a request -/

/-- `ParseLine`, once it has the three tokens. -/
def HttpRequest.takeLine (request : HttpRequest) (method url httpVersion : Bytes) : HttpRequest :=
  let request := { request with method, url, httpVersion }
  match split url (ascii "&") ampersand_ne_nil true with
  | [uri, params] => { request with uri }.parseURLParams params
  | _ => { request with uri := url }

theorem HttpRequest.takeLine_headers (request : HttpRequest) (method url httpVersion : Bytes) :
    (request.takeLine method url httpVersion).headers = request.headers := by
  unfold takeLine
  split <;> rfl

theorem HttpRequest.takeLine_bodyParams (request : HttpRequest) (method url httpVersion : Bytes) :
    (request.takeLine method url httpVersion).bodyParams = request.bodyParams := by
  unfold takeLine
  split <;> rfl

theorem HttpRequest.parseLine_eq_ok_iff {request parsed : HttpRequest} {line : Bytes} :
    request.parseLine line = .ok parsed ↔ ∃ method url httpVersion more,
      split line (ascii " ") space_ne_nil true = method :: url :: httpVersion :: more ∧
        request.takeLine method url httpVersion = parsed := by
  rcases parts : split line (ascii " ") space_ne_nil true with
    _ | ⟨method, _ | ⟨url, _ | ⟨httpVersion, more⟩⟩⟩
  case cons.cons.cons =>
    have first : element (method :: url :: httpVersion :: more) 0 = .ok method := rfl
    have second : element (method :: url :: httpVersion :: more) 1 = .ok url := rfl
    have third : element (method :: url :: httpVersion :: more) 2 = .ok httpVersion := rfl
    have ran : request.parseLine line = .ok (request.takeLine method url httpVersion) := by
      simp only [parseLine, parts, first, second, third, bind, Except.bind, pure, Except.pure,
        takeLine]
      rcases split url (ascii "&") ampersand_ne_nil true with _ | ⟨_, _ | ⟨_, _ | _⟩⟩ <;> rfl
    rw [ran]
    simp
  -- with fewer tokens, the vector is indexed behind its end
  all_goals simp [parseLine, parts, element, bind, Except.bind]

/-- The pieces of a text that the parser uses: the request line is the first line in front
of the first blank line that is not empty. -/
structure Pieces (text : Bytes) where
  head : Bytes
  rest : Bytes
  line : Bytes
  headers : List Bytes
  method : Bytes
  url : Bytes
  httpVersion : Bytes
  more : List Bytes
  whole : text = head ++ blankLine ++ rest
  ends : Closed blankLine head
  lines : split head crlf crlf_ne_nil false = line :: headers
  tokens : split line (ascii " ") space_ne_nil true = method :: url :: httpVersion :: more

/-- The request that is made up of the pieces. -/
def Pieces.request {text : Bytes} (pieces : Pieces text) : HttpRequest :=
  { HttpRequest.new.takeLine pieces.method pieces.url pieces.httpVersion with
    headers := pieces.headers.foldl HttpRequest.parseHeader fun _ => none
    body := before blankLine pieces.rest
    bodyParams := HttpRequest.params (before blankLine pieces.rest) }

namespace HttpRequest

theorem parseHead_eq_ok_iff {head : Bytes} {fields : HttpRequest} :
    parseHead head = .ok fields ↔ ∃ line headers parsed,
      split head crlf crlf_ne_nil false = line :: headers ∧ new.parseLine line = .ok parsed ∧
        parsed.parseHeaders (line :: headers) = fields := by
  cases parts : split head crlf crlf_ne_nil false with
  | nil => simp [parseHead, parts, element, bind, Except.bind]
  | cons line headers =>
    simp only [parseHead, parts, bind_eq_ok, pure, Except.pure, Except.ok.injEq]
    constructor
    · rintro ⟨_, first, parsed, ran, same⟩
      cases first
      exact ⟨line, headers, parsed, rfl, ran, same⟩
    · rintro ⟨_, _, parsed, first, ran, same⟩
      cases first
      exact ⟨line, rfl, parsed, ran, same⟩

/-- There are no two parts of a text without a blank line. -/
theorem parse_unbroken {text : Bytes} (clean : ¬ blankLine <:+: text) :
    new.parse text = .error .vectorRange := by
  have second : element (split text blankLine blankLine_ne_nil true) 1 = .error .vectorRange := by
    by_cases empty : text = []
    · rw [empty]
      rfl
    · rw [split_of_cut blankLine_ne_nil true (.last clean) empty]
      rfl
  rw [parse, second]
  rfl

end HttpRequest

theorem Pieces.parse {text : Bytes} (pieces : Pieces text) :
    HttpRequest.new.parse text = .ok pieces.request := by
  obtain ⟨_, parts⟩ := split_append blankLine_ne_nil pieces.ends pieces.rest
  have taken : HttpRequest.new.parseLine pieces.line =
      .ok (HttpRequest.new.takeLine pieces.method pieces.url pieces.httpVersion) :=
    HttpRequest.parseLine_eq_ok_iff.mpr ⟨_, _, _, _, pieces.tokens, rfl⟩
  have parsed := HttpRequest.parseHead_eq_ok_iff.mpr ⟨_, _, _, pieces.lines, taken, rfl⟩
  calc HttpRequest.new.parse text
      = HttpRequest.new.parse (pieces.head ++ blankLine ++ pieces.rest) :=
        congrArg HttpRequest.new.parse pieces.whole
    _ = .ok pieces.request := by
        rw [HttpRequest.parse_of_split parts, parsed]
        simp only [Except.map, HttpRequest.parseHeaders, HttpRequest.parseBody,
          HttpRequest.takeLine_headers, HttpRequest.takeLine_bodyParams, List.tail_cons, request]
        rfl

/-- The parser succeeds exactly on the texts that have the pieces. -/
theorem HttpRequest.parse_eq_ok_iff {text : Bytes} {request : HttpRequest} :
    new.parse text = .ok request ↔ ∃ pieces : Pieces text, pieces.request = request := by
  constructor
  · intro ran
    cases found : find blankLine text with
    | none =>
      rw [parse_unbroken (find_eq_none_iff.mp found)] at ran
      cases ran
    | some position =>
      obtain ⟨head, rest, whole, -, ends⟩ := eq_of_find found
      obtain ⟨_, parts⟩ := split_append blankLine_ne_nil ends rest
      match parsed : parseHead head with
      | .error fault =>
        rw [whole, parse_of_split parts, parsed] at ran
        cases ran
      | .ok fields =>
        obtain ⟨line, headers, _, lines, taken, -⟩ := parseHead_eq_ok_iff.mp parsed
        obtain ⟨method, url, httpVersion, more, tokens, -⟩ := parseLine_eq_ok_iff.mp taken
        let pieces : Pieces text :=
          ⟨head, rest, line, headers, method, url, httpVersion, more, whole, ends, lines, tokens⟩
        exact ⟨pieces, Except.ok.inj (pieces.parse.symm.trans ran)⟩
  · rintro ⟨pieces, rfl⟩
    exact pieces.parse

/-! ### Requests that are written out -/

/-- No carriage return and no line feed. -/
def Unbroken (text : Bytes) : Prop := byte '\r' ∉ text ∧ byte '\n' ∉ text
deriving Decidable

/-- The tokens of a request line, and the header lines behind it. -/
structure RequestHead where
  method : Bytes
  url : Bytes
  version : Bytes
  headers : List Bytes
  tokens : ∀ token ∈ [method, url, version], byte ' ' ∉ token ∧ Unbroken token
  lines : ∀ header ∈ headers, header ≠ [] ∧ Unbroken header

theorem no_lines : ∀ header ∈ ([] : List Bytes), header ≠ [] ∧ Unbroken header := nofun

/-- A line break is passed over where no other one follows. -/
theorem find_blankLine_crlf {rest : Bytes} (apart : rest.head? ≠ some (byte '\r')) :
    find blankLine (crlf ++ rest) = (find blankLine rest).map (· + 2) := by
  have first : ¬ blankLine <+: byte '\r' :: byte '\n' :: rest := by
    rintro ⟨behind, starts⟩
    cases starts
    exact apart rfl
  have second : ¬ blankLine <+: byte '\n' :: rest := by
    rintro ⟨behind, starts⟩
    cases starts
  change find blankLine (byte '\r' :: byte '\n' :: rest) = _
  rw [find, if_neg first, find, if_neg second, Option.map_map]
  rfl

/-- Lines with something in them have no blank line among them. -/
theorem closed_lines {lines : List Bytes} (some : lines ≠ [])
    (each : ∀ line ∈ lines, line ≠ [] ∧ Unbroken line) :
    Closed blankLine (crlf.intercalate lines) := by
  induction lines with
  | nil => exact absurd rfl some
  | cons line lines inductionHypothesis =>
    obtain ⟨⟨-, unbroken, -⟩, later⟩ := List.forall_mem_cons.mp each
    by_cases more : lines = []
    · rw [more, List.intercalate_singleton]
      exact closed_of_not_mem rfl unbroken
    · have closed := inductionHypothesis more later
      have apart : (crlf.intercalate lines ++ blankLine).head? ≠ .some (byte '\r') := by
        obtain ⟨next, others, rfl⟩ := List.exists_cons_of_ne_nil more
        obtain ⟨nonempty, nextUnbroken, -⟩ := later next (List.mem_cons_self ..)
        have begins : (crlf.intercalate (next :: others) ++ blankLine).head? = next.head? := by
          by_cases last : others = []
          · rw [last, List.intercalate_singleton, List.head?_append_of_ne_nil _ nonempty]
          · rw [List.intercalate_cons_of_ne_nil last, List.append_assoc, List.append_assoc,
              List.head?_append_of_ne_nil _ nonempty]
        rw [begins]
        exact fun first => nextUnbroken (List.mem_of_mem_head? first)
      rw [Closed, List.intercalate_cons_of_ne_nil more, List.append_assoc, List.append_assoc,
        find_append_of_not_mem rfl unbroken, find_blankLine_crlf apart, closed]
      have width : crlf.length = 2 := rfl
      simp only [Option.map_some, List.length_append, width, Option.some.injEq]
      omega

namespace RequestHead

variable (head : RequestHead)

/-- The request line. -/
def line : Bytes := join [head.method, head.url, head.version] (ascii " ")

/-- The text up to the body. -/
def text : Bytes := block crlf (head.line :: head.headers)

theorem line_eq :
    head.line = head.method ++ ascii " " ++ head.url ++ ascii " " ++ head.version := by
  simp [line, join, List.intercalate_cons_cons]

theorem line_ne_nil : head.line ≠ [] := by simp [line_eq, ascii]

theorem line_unbroken : Unbroken head.line :=
  ⟨not_mem_intercalate (by decide) fun token among => (head.tokens token among).2.1,
    not_mem_intercalate (by decide) fun token among => (head.tokens token among).2.2⟩

theorem text_eq : head.text = crlf.intercalate (head.line :: head.headers) ++ blankLine := by
  rw [text, block, text_eq_intercalate (List.cons_ne_nil _ _), List.append_assoc]
  rfl

theorem each_line : ∀ line ∈ head.line :: head.headers, line ≠ [] ∧ Unbroken line :=
  List.forall_mem_cons.mpr ⟨⟨head.line_ne_nil, head.line_unbroken⟩, head.lines⟩

theorem split_lines : split (crlf.intercalate (head.line :: head.headers)) crlf crlf_ne_nil false =
    head.line :: head.headers := by
  have cut : Cut crlf (crlf.intercalate (head.line :: head.headers)) (head.line :: head.headers) :=
    cut_intercalate crlf_ne_nil (List.cons_ne_nil _ _) fun line among =>
      closed_of_not_mem rfl (head.each_line line among).2.1
  have some := cut.list_ne_nil crlf_ne_nil (List.mem_cons_self ..) head.line_ne_nil
  rw [split_of_cut crlf_ne_nil false cut some]
  exact List.filter_eq_self.mpr fun line among => by
    simpa using (head.each_line line among).1

theorem split_line : split head.line (ascii " ") space_ne_nil true =
    [head.method, head.url, head.version] :=
  split_join (List.cons_ne_nil _ _) (fun token among => (head.tokens token among).1)
    head.line_ne_nil

/-- The pieces of a request are those that it was written with. -/
def pieces (rest : Bytes) : Pieces (head.text ++ rest) where
  head := crlf.intercalate (head.line :: head.headers)
  rest := rest
  line := head.line
  headers := head.headers
  method := head.method
  url := head.url
  httpVersion := head.version
  more := []
  whole := by rw [text_eq]
  ends := closed_lines (List.cons_ne_nil _ _) head.each_line
  lines := head.split_lines
  tokens := head.split_line

end RequestHead

/-! ### What is read back -/

theorem HttpRequest.takeLine_tokens (request : HttpRequest) (method url httpVersion : Bytes) :
    (request.takeLine method url httpVersion).method = method ∧
      (request.takeLine method url httpVersion).url = url ∧
      (request.takeLine method url httpVersion).httpVersion = httpVersion := by
  unfold takeLine
  split <;> exact ⟨rfl, rfl, rfl⟩

theorem Pieces.request_tokens {text : Bytes} (pieces : Pieces text) :
    pieces.request.method = pieces.method ∧ pieces.request.url = pieces.url ∧
      pieces.request.httpVersion = pieces.httpVersion :=
  HttpRequest.new.takeLine_tokens pieces.method pieces.url pieces.httpVersion

/-- The pairs of a form. -/
structure Form where
  pairs : List (Bytes × Bytes)
  plain : ∀ pair ∈ pairs, Plain pair
  unbroken : ∀ pair ∈ pairs, ∀ text ∈ [pair.1, pair.2], Unbroken text

def Form.text (form : Form) : Bytes := formText form.pairs

theorem Form.text_unbroken (form : Form) : ¬ blankLine <:+: form.text := by
  have absent : byte '\r' ∉ form.text := by
    refine not_mem_intercalate (by decide) fun param among => ?_
    obtain ⟨pair, member, rfl⟩ := List.mem_map.mp among
    exact not_mem_intercalate (by decide) fun text one => (form.unbroken pair member text one).1
  exact fun inside => absent (inside.subset (by decide))

/-- A form that is sent as a body is read back, and so is the request line in front of it.
Blanks around a key or a value stay. -/
theorem form_recovered (head : RequestHead) (form : Form) :
    ∃ request, HttpRequest.new.parse (head.text ++ form.text) = .ok request ∧
      request.method = head.method ∧ request.url = head.url ∧
      request.httpVersion = head.version ∧
      ∀ response key, (HttpContext.new request response).queryBody key =
        lastValue form.pairs key := by
  have tokens := (head.pieces form.text).request_tokens
  have whole := (before_eq_iff blankLine_ne_nil).mpr form.text_unbroken
  refine ⟨(head.pieces form.text).request, (head.pieces form.text).parse, tokens.1, tokens.2.1,
    tokens.2.2, fun response key => ?_⟩
  have params : (head.pieces form.text).request.bodyParams key = form.pairs.reverse.lookup key := by
    change HttpRequest.params (before blankLine form.text) key = _
    rw [whole, HttpRequest.params_eq, Form.text, assignments_formText form.plain]
  exact congrArg (Option.getD · []) params

/-- The body is all that follows the first blank line exactly if no blank line follows it. -/
theorem body_eq_rest_iff {text : Bytes} (pieces : Pieces text) :
    (∃ request, HttpRequest.new.parse text = .ok request ∧ request.body = pieces.rest) ↔
      ¬ blankLine <:+: pieces.rest := by
  rw [← before_eq_iff blankLine_ne_nil]
  constructor
  · rintro ⟨request, ran, whole⟩
    cases pieces.parse.symm.trans ran
    exact whole
  · exact fun whole => ⟨pieces.request, pieces.parse, whole⟩

/-- A body with a blank line in it ends there. -/
theorem body_broken :
    ¬ ∃ request, HttpRequest.new.parse (ascii "POST / HTTP/1.1\r\n\r\n" ++ ascii "a\r\n\r\nb") =
        .ok request ∧ request.body = ascii "a\r\n\r\nb" := by
  rintro ⟨request, ran, whole⟩
  have found : (HttpRequest.new.parse
      (ascii "POST / HTTP/1.1\r\n\r\n" ++ ascii "a\r\n\r\nb")).toOption.map (·.body) =
        some (ascii "a") := by decide
  rw [ran] at found
  exact absurd (whole.symm.trans (Option.some.inj found)) (by decide)

end Luce.Http
