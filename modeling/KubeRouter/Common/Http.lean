/-
  The HTTP responder (`observability/src/http.rs`).

  A request is the text of its first read, and a reply is a text. `readReply` is the side of a
  probe: it asks for the status line, the three headers in their order and a body of the
  announced number of bytes.

  Proved:
  * `readReply_replyText`: a probe reads back status, content type and body of every response.
-/
import KubeRouter.Common.Line

namespace KubeRouter.Http

/-! ## The responder -/

structure Response where
  status : UInt16
  contentType : String
  body : String
deriving DecidableEq, Repr

def reason (status : UInt16) : String :=
  if status = 200 then "OK"
  else if status = 404 then "Not Found"
  else if status = 500 then "Internal Server Error"
  else if status = 503 then "Service Unavailable"
  else "Unknown"

/-- The second word of the first line. -/
def parsePath (req : List Char) : Option (List Char) :=
  match Text.lines req with
  | [] => none
  | line :: _ =>
    match Text.splitWhitespace line with
    | _ :: path :: _ => some path
    | _ => none

/-- The reply that `handle_conn` writes. -/
def replyText (resp : Response) : String :=
  "HTTP/1.1 " ++ toString resp.status.toNat ++ " " ++ reason resp.status ++ "\r\nContent-Type: " ++
    resp.contentType ++ "\r\nContent-Length: " ++ toString resp.body.utf8ByteSize ++
    "\r\nConnection: close\r\n\r\n" ++ resp.body

/-- `handle_conn`: a request without a path asks for `/`. -/
def handleConn (handler : List Char → Response) (req : List Char) : String :=
  replyText (handler ((parsePath req).getD ['/']))

def notFound : Response := ⟨404, "text/plain", "not found"⟩

/-- Paths that start with `/healthz`. -/
def isHealthz (path : List Char) : Bool := "/healthz".toList.isPrefixOf path

/-! ## A probe -/

/-- The text behind a fixed piece of it. -/
def expect (piece text : List Char) : Option (List Char) :=
  if piece.isPrefixOf text then some (text.drop piece.length) else none

theorem expect_append (piece rest : List Char) : expect piece (piece ++ rest) = some rest := by
  simp [expect]

/-- A number up to a separator, and the text behind the separator. -/
def readNumber (sep : Char) (text : List Char) : Option (Nat × List Char) := do
  let (digits, rest) ← Split.once (· == sep) text
  if digits.isEmpty || !digits.all (·.isDigit) then none
  else some (Nat.ofDigitChars 10 digits 0, rest)

theorem readNumber_toDigits (n : Nat) {sep : Char} (hsep : sep.isDigit = false)
    (rest : List Char) : readNumber sep (Nat.toDigits 10 n ++ sep :: rest) = some (n, rest) := by
  have hcut : Split.once (· == sep) (Nat.toDigits 10 n ++ sep :: rest) =
      some (Nat.toDigits 10 n, rest) :=
    Split.once_append (fun c hc => by
      simpa using fun heq : c = sep => IpAddr.not_mem_toDigits hsep (heq ▸ hc)) (by simp) rest
  simp only [readNumber, hcut, Option.bind_eq_bind, Option.bind_some]
  rw [if_neg, Nat.ofDigitChars_ten_toDigits]
  simpa [Nat.toDigits_ne_nil] using fun c => Text.isDigit_of_mem_toDigits

/-- Status, content type and body of a reply. -/
def readReply (text : List Char) : Option Response := do
  let text ← expect "HTTP/1.1 ".toList text
  let (status, text) ← readNumber ' ' text
  let (_, text) ← Split.once (· == '\r') text
  let text ← expect "\nContent-Type: ".toList text
  let (contentType, text) ← Split.once (· == '\r') text
  let text ← expect "\nContent-Length: ".toList text
  let (length, text) ← readNumber '\r' text
  let text ← expect "\nConnection: close\r\n\r\n".toList text
  if (String.ofList text).utf8ByteSize = length then
    some ⟨UInt16.ofNat status, String.ofList contentType, String.ofList text⟩
  else none

theorem cr_not_mem_reason (status : UInt16) : '\r' ∉ (reason status).toList := by
  unfold reason
  repeat' split
  all_goals decide

theorem once_cr {text rest : List Char} (h : '\r' ∉ text) :
    Split.once (· == '\r') (text ++ '\r' :: rest) = some (text, rest) :=
  Split.once_append (fun c hc => by simpa using fun heq : c = '\r' => h (heq ▸ hc)) rfl rest

theorem toList_replyText (resp : Response) :
    (replyText resp).toList = "HTTP/1.1 ".toList ++ (Nat.toDigits 10 resp.status.toNat ++
      ' ' :: ((reason resp.status).toList ++ '\r' :: ("\nContent-Type: ".toList ++
        (resp.contentType.toList ++ '\r' :: ("\nContent-Length: ".toList ++
          (Nat.toDigits 10 resp.body.utf8ByteSize ++ '\r' ::
            ("\nConnection: close\r\n\r\n".toList ++ resp.body.toList))))))) := by
  unfold replyText
  simp [String.toList_append, Nat.toList_repr]

/-- A probe reads a reply as it was meant. -/
theorem readReply_replyText (resp : Response) (h : '\r' ∉ resp.contentType.toList) :
    readReply (replyText resp).toList = some resp := by
  rw [toList_replyText, readReply]
  simp only [expect_append, Option.bind_eq_bind, Option.bind_some,
    readNumber_toDigits _ (by decide : ' '.isDigit = false),
    readNumber_toDigits _ (by decide : '\r'.isDigit = false),
    once_cr (cr_not_mem_reason resp.status), once_cr h, String.ofList_toList, if_true,
    UInt16.ofNat_toNat]

end KubeRouter.Http
