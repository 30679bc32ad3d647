import WslVpn.Dns.Text
import WslVpn.Templates.References

/-! The loopback listener that a browser comes back to when a sign-in is over. A connection is what the
reads from its socket give, one after another.
-/

namespace WslVpn.Agent

open Dns (Text byteLength fromUtf8Lossy splitWhitespace)
open Templates (find)

abbrev Byte := UInt8

/-- What a read gives, which is one byte at least. -/
structure Chunk where
  first : Byte
  others : List Byte

def Chunk.bytes (chunk : Chunk) : List Byte := chunk.first :: chunk.others

/-- What becomes of a connection that sends nothing more. -/
inductive Ending where
  | closed
  | reset
  | silent
  deriving DecidableEq

structure Connection where
  chunks : List Chunk
  ending : Ending

/-- What `read_request_target` comes to. -/
inductive TargetRead where
  | target (target : Option Text)
  | failed
  | blocked

def lineEnd : List Byte := [13, 10]

/-- The second word of a line: `GET /callback?code=... HTTP/1.1`. -/
def requestTarget (line : List Byte) : Option Text := (splitWhitespace (fromUtf8Lossy line))[1]?

/-- The loop of `read_request_target`, with what it has read. -/
def readTargetFrom (buffer : List Byte) : List Chunk → Ending → TargetRead
  | [], .closed => .target none
  | [], .reset => .failed
  | [], .silent => .blocked
  | chunk :: rest, ending =>
      let buffer := buffer ++ chunk.bytes
      match find lineEnd buffer with
      | some place => .target (requestTarget (buffer.take place))
      | none =>
          if 8192 < buffer.length then .target none
          else readTargetFrom buffer rest ending

/-- Read the request target out of the first line, and no further. -/
def readRequestTarget (connection : Connection) : TargetRead :=
  readTargetFrom [] connection.chunks connection.ending

inductive CallbackOutcome where
  | code (code : Text)
  | error (message : Text)
  | notTheCallback
  deriving DecidableEq

/-- A URL as the URL library reads it, with its query decoded. -/
structure CallbackUrl where
  path : Text
  queryPairs : List (Text × Text)

/-- The parameters of a callback. -/
structure CallbackQuery where
  code : Option Text
  error : Option Text
  description : Option Text

/-- The body of the loop over the parameters: of two of one name the later one counts. -/
def CallbackQuery.read (query : CallbackQuery) (pair : Text × Text) : CallbackQuery :=
  if pair.1 = "code".toList then { query with code := some pair.2 }
  else if pair.1 = "error".toList then { query with error := some pair.2 }
  else if pair.1 = "error_description".toList then { query with description := some pair.2 }
  else query

def callbackPath : Text := "/callback".toList

/-- The page shown in the browser, with its header. -/
def page (status : Nat) (title message : Text) : Text :=
  let reason := if status = 200 then "OK" else if status = 400 then "Bad Request" else "Not Found"
  let body :=
    "<!doctype html><html><head><meta charset=\"utf-8\"><title>".toList ++ title
      ++ ("</title><style>body\x7bfont:15px -apple-system,system-ui,sans-serif;margin:4rem auto;"
        ++ "max-width:28rem;color:#222\x7dh1\x7bfont-size:1.2rem\x7d</style></head><body><h1>").toList
      ++ title ++ "</h1><p>".toList ++ message ++ "</p></body></html>".toList
  "HTTP/1.1 ".toList ++ Nat.toDigits 10 status ++ " ".toList ++ reason.toList
    ++ "\r\nContent-Type: text/html; charset=utf-8\r\nContent-Length: ".toList
    ++ Nat.toDigits 10 (byteLength body)
    ++ "\r\nCache-Control: no-store\r\nConnection: close\r\n\r\n".toList ++ body

def notFoundPage : Text :=
  page 404 "Not found".toList "This is not the login callback.".toList

def signedInPage : Text :=
  page 200 "Signed in".toList "You can close this tab and return to the terminal.".toList

def failedPage (message : Text) : Text := page 400 "Sign-in failed".toList message

/-- What `wait_for_code` comes to. -/
inductive Waited where
  | code (code : Text)
  | failed (message : Text)
  | waiting
  deriving DecidableEq

section Listener

variable (parse : Text → Option CallbackUrl)

/-- The target is origin-form, so it needs a base before it will parse. -/
def parseCallback (target : Text) : CallbackOutcome :=
  match parse ("http://127.0.0.1".toList ++ target) with
  | none => .notTheCallback
  | some url =>
      if url.path ≠ callbackPath then .notTheCallback
      else
        let query := url.queryPairs.foldl CallbackQuery.read ⟨none, none, none⟩
        match query.code, query.error with
        | _, some error => .error (query.description.getD error)
        | some code, none => .code code
        | none, none => .error "callback carried no code".toList

/-- Serve loopback requests until one carries the callback: what each connection is answered, and what
comes of the wait.
-/
def waitForCode : List Connection → List (Option Text) × Waited
  | [] => ([], .waiting)
  | socket :: later =>
      match readRequestTarget socket with
      | .failed => ([], .failed "connection reset".toList)
      | .blocked => ([], .waiting)
      | .target none =>
          let (answers, waited) := waitForCode later
          (none :: answers, waited)
      | .target (some target) =>
          match parseCallback parse target with
          | .notTheCallback =>
              let (answers, waited) := waitForCode later
              (some notFoundPage :: answers, waited)
          | .code code => ([some signedInPage], .code code)
          | .error message =>
              ([some (failedPage message)], .failed ("sign-in refused: ".toList ++ message))

end Listener

end WslVpn.Agent
