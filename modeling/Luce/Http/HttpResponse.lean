/-
This file models HTTP responses and the context that a handler is given.

The order in which a `std::unordered_map` is iterated is not specified, so it is a
parameter: any order of the entries will do. A response has no buffer until `SetBody`
composes one of what has been set before.
-/

import Luce.Http.HttpRequest
import Mathlib.Data.List.Perm.Basic

namespace Luce.Http

/-- The order in which a map with these entries is iterated. -/
structure Iteration where
  order : List (Bytes × Bytes) → List (Bytes × Bytes)
  perm : ∀ entries, (order entries).Perm entries

/-- A response. The headers are the entries of a map, whose keys differ. -/
structure HttpResponse where
  buffer : Bytes
  statusCode : Int
  httpVersion : Bytes
  headers : List (Bytes × Bytes)
deriving DecidableEq, Repr

namespace HttpResponse

def setStatusCode (response : HttpResponse) (statusCode : Int) : HttpResponse :=
  { response with statusCode }

def setHTTPVersion (response : HttpResponse) (httpVersion : Bytes) : HttpResponse :=
  { response with httpVersion }

/-- `headers_[key] = value`. -/
def setHeader (response : HttpResponse) (key value : Bytes) : HttpResponse :=
  { response with headers :=
    response.headers.filter (fun header => header.1 ≠ key) ++ [(key, value)] }

def getCodeDescript : Int → Bytes
  | 100 => ascii "Continue"
  | 101 => ascii "Switching Protocols"
  | 200 => ascii "OK"
  | 201 => ascii "Created"
  | 202 => ascii "Accepted"
  | 203 => ascii "Non-Authoritative Information"
  | 204 => ascii "No Content"
  | 205 => ascii "Reset Content"
  | 206 => ascii "Partial Content"
  | 300 => ascii "Multiple Choices"
  | 301 => ascii "Moved Permanently"
  | 302 => ascii "Found"
  | 303 => ascii "See Other"
  | 304 => ascii "Not Modified"
  | 305 => ascii "Use Proxy"
  | 306 => ascii "Unused"
  | 307 => ascii "Temporary Redirect"
  | 400 => ascii "Bad Request"
  | 401 => ascii "Unauthorized"
  | 403 => ascii "Forbidden"
  | 404 => ascii "Not Found"
  | 405 => ascii "Method Not Allowed"
  | 500 => ascii "Internal Server Error"
  | 501 => ascii "Not Implemented"
  | 502 => ascii "Bad Gateway"
  | 503 => ascii "Service Unavailable"
  | 504 => ascii "Gateway Time-out"
  | 505 => ascii "HTTP Version not supported"
  | _ => ascii "Unknow Code or Unsupported now"

variable (iteration : Iteration)

/-- The lines of the headers. -/
def headerLines (headers : List (Bytes × Bytes)) : Bytes :=
  (iteration.order headers).flatMap fun header => header.1 ++ ascii ":" ++ header.2 ++ crlf

def setBody (response : HttpResponse) (body : Bytes) : HttpResponse :=
  { response with buffer :=
    response.httpVersion ++ ascii " " ++ ascii (toString response.statusCode) ++ ascii " " ++
      getCodeDescript response.statusCode ++ crlf ++ headerLines iteration response.headers ++
      crlf ++ body ++ crlf }

end HttpResponse

structure HttpContext where
  req : HttpRequest
  res : HttpResponse
  path : Bytes
  method : Bytes
  statusCode : Int

namespace HttpContext

def new (req : HttpRequest) (res : HttpResponse) : HttpContext := ⟨req, res, req.url, req.method, 500⟩

/-- The value of a parameter of the URL, or nothing. -/
def queryURL (context : HttpContext) (key : Bytes) : Bytes := (context.req.urlParams key).getD []

/-- The value of a parameter of the body, or nothing. -/
def queryBody (context : HttpContext) (key : Bytes) : Bytes :=
  (context.req.bodyParams key).getD []

def setHeader (context : HttpContext) (key value : Bytes) : HttpContext :=
  { context with res := context.res.setHeader key value }

def status (context : HttpContext) (code : Int) : HttpContext :=
  { context with statusCode := code, res := context.res.setStatusCode code }

def html (iteration : Iteration) (context : HttpContext) (code : Int) (html : Bytes) :
    HttpContext :=
  let context := (context.setHeader (ascii "Content-Type") (ascii "text/html")).status code
  { context with res := context.res.setBody iteration html }

end HttpContext

end Luce.Http
