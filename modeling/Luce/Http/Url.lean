/-
This file shows that no URL with parameters is taken apart as its fields are documented.

The path of a URL ends at a question mark, but the parser looks for an ampersand only. If
there is one ampersand, the first parameter is left with the path and the second one is
stored; otherwise all parameters are left with the path and none is stored.
-/

import Luce.Http.RequestText

namespace Luce.Http

open StringUtil Library.Lines

/-- A key or a value that nothing in a URL is cut at. -/
def Clean (text : Bytes) : Prop := text ≠ [] ∧ ∀ char ∈ ascii "&=?# ", char ∉ text

instance (text : Bytes) : Decidable (Clean text) :=
  have : Decidable (∀ char ∈ ascii "&=?# ", char ∉ text) := List.decidableBAll _ _
  inferInstanceAs (Decidable (_ ∧ _))

/-- A path with parameters behind it. -/
structure Url where
  path : Bytes
  params : List (Bytes × Bytes)
  bare : byte '?' ∉ path ∧ byte '&' ∉ path ∧ byte ' ' ∉ path
  nonempty : params ≠ []
  clean : ∀ pair ∈ params, ∀ text ∈ [pair.1, pair.2], Clean text

namespace Url

variable (url : Url)

def text : Bytes := url.path ++ ascii "?" ++ formText url.params

/-- `uri_` is the path, and `QueryURL` returns the last value that is given for a key. -/
def Decomposed (request : HttpRequest) : Prop :=
  request.uri = url.path ∧
    ∀ response, ∀ key ∈ url.params.map Prod.fst,
      (HttpContext.new request response).queryURL key = lastValue url.params key

theorem plain : ∀ pair ∈ url.params, Plain pair := by
  intro pair among text one
  have absent := (url.clean pair among text one).2
  exact ⟨absent _ (by decide), absent _ (by decide)⟩

theorem text_eq {first : Bytes × Bytes} {others : List (Bytes × Bytes)}
    (params : url.params = first :: others) :
    url.text = join ((url.path ++ ascii "?" ++ paramText first) :: others.map paramText)
      (ascii "&") := by
  rw [text, params, formText, join, join, List.map_cons]
  cases others.map paramText with
  | nil => rw [List.intercalate_singleton, List.intercalate_singleton]
  | cons param params =>
    rw [List.intercalate_cons_cons, List.intercalate_cons_cons]
    simp only [List.append_assoc]

/-- The first part is the path with the first parameter. -/
theorem split_text {first : Bytes × Bytes} {others : List (Bytes × Bytes)}
    (params : url.params = first :: others) :
    split url.text (ascii "&") ampersand_ne_nil true =
      (url.path ++ ascii "?" ++ paramText first) :: others.map paramText := by
  have plain := url.plain
  rw [params, List.forall_mem_cons] at plain
  have absent : ∀ part ∈ (url.path ++ ascii "?" ++ paramText first) :: others.map paramText,
      byte '&' ∉ part := by
    rw [List.forall_mem_cons, List.mem_append, List.mem_append, not_or, not_or]
    refine ⟨⟨⟨url.bare.2.1, by decide⟩, not_mem_paramText plain.1⟩, fun part member => ?_⟩
    obtain ⟨pair, among, rfl⟩ := List.mem_map.mp member
    exact not_mem_paramText (plain.2 pair among)
  have some : url.path ++ ascii "?" ++ paramText first ≠ [] := by simp [paramText_ne_nil]
  rw [url.text_eq params]
  exact split_join (List.cons_ne_nil _ _) absent (join_ne_nil (List.mem_cons_self ..) some absent)

end Url

namespace HttpRequest

/-- A URL of two parts. -/
theorem takeLine_pair (method httpVersion : Bytes) {url uri rest : Bytes}
    (parts : split url (ascii "&") ampersand_ne_nil true = [uri, rest]) :
    (new.takeLine method url httpVersion).uri = uri ∧
      (new.takeLine method url httpVersion).urlParams = params rest := by
  rw [takeLine, parts]
  exact ⟨rfl, rfl⟩

/-- A URL of any other number of parts. -/
theorem takeLine_whole (method httpVersion : Bytes) {url : Bytes}
    (parts : (split url (ascii "&") ampersand_ne_nil true).length ≠ 2) :
    (new.takeLine method url httpVersion).uri = url ∧
      (new.takeLine method url httpVersion).urlParams = fun _ => none := by
  rw [takeLine]
  generalize split url (ascii "&") ampersand_ne_nil true = whole at parts ⊢
  rcases whole with _ | ⟨_, _ | ⟨_, _ | _⟩⟩
  case cons.cons.nil => exact absurd rfl parts
  all_goals exact ⟨rfl, rfl⟩

end HttpRequest

namespace Url

variable (url : Url)

/-- Every key has a value with something in it. -/
theorem lastValue_ne_nil {key : Bytes} (among : key ∈ url.params.map Prod.fst) :
    lastValue url.params key ≠ [] := by
  obtain ⟨value, member, found⟩ := exists_lastValue among
  rw [lastValue, found]
  exact (url.clean _ member value (by simp)).1

section Stored

variable {text : Bytes} {request : HttpRequest}
  (parsed : HttpRequest.new.parse text = .ok request) (same : request.url = url.text)

include parsed same

/-- With two parameters the first one is left with the path. -/
theorem stored_pair {first second : Bytes × Bytes} (params : url.params = [first, second]) :
    request.uri = url.path ++ ascii "?" ++ paramText first ∧
      ∀ key, request.urlParams key = [second].lookup key := by
  obtain ⟨pieces, rfl⟩ := HttpRequest.parse_eq_ok_iff.mp parsed
  have parts := url.split_text params
  rw [← same, pieces.request_tokens.2.1] at parts
  obtain ⟨uri, urlParams⟩ := HttpRequest.takeLine_pair pieces.method pieces.httpVersion parts
  refine ⟨uri, fun key => (congrFun urlParams key).trans ?_⟩
  have plain : ∀ pair ∈ [second], Plain pair := fun pair among =>
    url.plain pair (params ▸ List.mem_cons_of_mem _ among)
  rw [HttpRequest.params_eq, ← formText_singleton, assignments_formText plain]
  rfl

/-- Otherwise all of them are. -/
theorem stored_whole (other : url.params.length ≠ 2) :
    request.uri = url.text ∧ ∀ key, request.urlParams key = none := by
  obtain ⟨pieces, rfl⟩ := HttpRequest.parse_eq_ok_iff.mp parsed
  obtain ⟨first, others, params⟩ := List.exists_cons_of_ne_nil url.nonempty
  have parts := congrArg List.length (url.split_text params)
  rw [← same, pieces.request_tokens.2.1, List.length_cons, List.length_map, ← List.length_cons,
    ← params] at parts
  obtain ⟨uri, urlParams⟩ :=
    HttpRequest.takeLine_whole pieces.method pieces.httpVersion (parts.trans_ne other)
  exact ⟨uri.trans (pieces.request_tokens.2.1.symm.trans same), congrFun urlParams⟩

/-- There is always a parameter in `uri_`. -/
theorem uri_ne_path : request.uri ≠ url.path := by
  intro path
  have longer : request.uri.length = url.path.length := congrArg List.length path
  by_cases two : url.params.length = 2
  · obtain ⟨first, second, params⟩ := List.length_eq_two.mp two
    rw [(url.stored_pair parsed same params).1] at longer
    simp [ascii] at longer
  · rw [(url.stored_whole parsed same two).1] at longer
    simp [Url.text, ascii] at longer

/-- The parameters are found exactly if there are two with one and the same key. -/
theorem queries_iff :
    (∀ response, ∀ key ∈ url.params.map Prod.fst,
        (HttpContext.new request response).queryURL key = lastValue url.params key) ↔
      ∃ key former latter, url.params = [(key, former), (key, latter)] := by
  constructor
  · intro found
    have given : ∀ key ∈ url.params.map Prod.fst, ∃ value, request.urlParams key = some value := by
      intro key among
      have value := found ⟨[], 0, [], []⟩ key among
      have some := url.lastValue_ne_nil among
      rw [← value] at some
      exact Option.ne_none_iff_exists'.mp fun none => some (congrArg (Option.getD · []) none)
    by_cases two : url.params.length = 2
    · obtain ⟨⟨key, former⟩, ⟨other, latter⟩, params⟩ := List.length_eq_two.mp two
      obtain ⟨value, present⟩ := given key (by simp [params])
      rw [(url.stored_pair parsed same params).2] at present
      rw [List.lookup_singleton] at present
      split at present
      case isTrue equal =>
        obtain rfl := eq_of_beq equal
        exact ⟨key, former, latter, params⟩
      case isFalse => cases present
    · obtain ⟨first, others, params⟩ := List.exists_cons_of_ne_nil url.nonempty
      obtain ⟨value, present⟩ := given first.1 (by simp [params])
      rw [(url.stored_whole parsed same two).2] at present
      cases present
  · rintro ⟨key, former, latter, params⟩ response name among
    have stored := (url.stored_pair parsed same params).2 name
    rw [params] at among ⊢
    obtain rfl : name = key := by simpa using among
    simp [HttpContext.queryURL, HttpContext.new, stored, lastValue]

/-- A URL with parameters is never taken apart as documented. -/
theorem not_decomposed : ¬ url.Decomposed request :=
  fun decomposed => url.uri_ne_path parsed same decomposed.1

end Stored

end Url

/-- `/foo?name=pgj`. -/
def foo : Url where
  path := ascii "/foo"
  params := [(ascii "name", ascii "pgj")]
  bare := by decide
  nonempty := List.cons_ne_nil _ _
  clean := by decide

/-- A request for it. -/
def getFoo : RequestHead where
  method := ascii "GET"
  url := foo.text
  version := ascii "HTTP/1.1"
  headers := []
  tokens := by decide
  lines := no_lines

/-- It is not taken apart. -/
theorem foo_not_decomposed : ¬ foo.Decomposed (getFoo.pieces []).request :=
  foo.not_decomposed (getFoo.pieces []).parse (getFoo.pieces []).request_tokens.2.1

/-- The parameter is left in `uri_`, and is not found. -/
theorem foo_undecomposed : ¬ ∀ request, HttpRequest.new.parse getFoo.text = .ok request →
    foo.Decomposed request := by
  intro every
  have left : (HttpRequest.new.parse getFoo.text).toOption.map (·.uri) = some foo.text := by decide
  match parsed : HttpRequest.new.parse getFoo.text with
  | .error fault =>
    rw [parsed] at left
    cases left
  | .ok request =>
    rw [parsed] at left
    exact absurd ((Option.some.inj left).symm.trans (every request parsed).1) (by decide)

end Luce.Http
