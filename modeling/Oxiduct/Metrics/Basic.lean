import Oxiduct.Data.Utf8
import Oxiduct.Data.Words
import Mathlib.Data.List.Infix
import Mathlib.Data.List.TakeWhile

/-!
This module contains what `handle_request` computes on the request it has buffered: the request
line, the verdict on it and the response. What `Metrics::render` returns is a parameter.
-/

namespace Metrics

abbrev Bytes := List UInt8

def bufLen : Nat := 1024

def newline : UInt8 := 0x0A

structure Buf where
  bytes : Bytes
  length_eq : bytes.length = bufLen

namespace Buf

def zero : Buf where
  bytes := List.replicate bufLen 0
  length_eq := List.length_replicate

def fill (buf : Buf) (n : Nat) (data : Bytes) (h : n + data.length ≤ bufLen) : Buf where
  bytes := buf.bytes.take n ++ data ++ buf.bytes.drop (n + data.length)
  length_eq := by
    have := buf.length_eq
    simp only [List.length_append, List.length_take, List.length_drop]
    omega

theorem take_fill (buf : Buf) {n : Nat} {data : Bytes} (h : n + data.length ≤ bufLen)
    : (buf.fill n data h).bytes.take (n + data.length) = buf.bytes.take n ++ data := by
  have := buf.length_eq
  have hlen : (buf.bytes.take n ++ data).length = n + data.length := by
    simp only [List.length_append, List.length_take]
    omega
  exact List.take_left' hlen

end Buf

def firstLine (head : List Char) : List Char :=
  (Text.lines head).head?.getD []

def isMetrics (firstLine : List Char) : Bool :=
  let parts := Text.splitWhitespace firstLine
  let method := parts[0]?.getD []
  let path := parts[1]?.getD []
  method = "GET".toList && (path = "/metrics".toList || "/metrics?".toList <+: path)

inductive Status where
  | ok
  | notFound
  deriving DecidableEq, Repr

def Status.text : Status → String
  | .ok => "200 OK"
  | .notFound => "404 Not Found"

structure Response where
  status : Status
  contentType : String
  body : Bytes
  deriving DecidableEq, Repr

def respond (rendered : Bytes) (isMetrics : Bool) : Response :=
  if isMetrics then
    ⟨.ok, "text/plain; version=0.0.4", rendered⟩
  else
    ⟨.notFound, "text/plain", Utf8.encode "404 not found\n".toList⟩

def Response.header (r : Response) : Bytes :=
  let text :=
    "HTTP/1.1 " ++ r.status.text ++ "\r\n"
      ++ "Content-Type: " ++ r.contentType ++ "\r\n"
      ++ "Content-Length: " ++ toString r.body.length ++ "\r\n"
      ++ "Connection: close\r\n\r\n"
  Utf8.encode text.toList

/--
All of a client's stream that the verdict may depend on: what it sends before its first newline if
the buffer reaches that far, else all that the buffer holds.
-/
def requestPrefix (sent : Bytes) : Bytes :=
  if newline ∈ sent.take bufLen then
    sent.takeWhile (· ≠ newline)
  else
    sent.take bufLen

def AsksForMetrics (words : List (List Char)) : Prop :=
  words[0]? = some "GET".toList
    ∧ ∃ path, words[1]? = some path ∧ (path = "/metrics".toList ∨ "/metrics?".toList <+: path)

theorem isMetrics_iff {line : List Char}
    : isMetrics line ↔ AsksForMetrics (Text.splitWhitespace line) := by
  simp only [isMetrics, AsksForMetrics, Bool.and_eq_true, Bool.or_eq_true, decide_eq_true_eq]
  generalize Text.splitWhitespace line = parts
  cases h₀ : parts[0]? with
  | none => simp
  | some method =>
    cases h₁ : parts[1]? with
    | none => simp
    | some path => simp

theorem firstLine_of_not_mem {head : List Char} (h : '\n' ∉ head) : firstLine head = head := by
  unfold firstLine
  cases head with
  | nil => rfl
  | cons c head =>
    rw [Text.lines_of_not_mem h (List.cons_ne_nil c head)]
    rfl

theorem splitWhitespace_firstLine {xs : List Char} (ys : List Char) (h : '\n' ∉ xs)
    : Text.splitWhitespace (firstLine (xs ++ '\n' :: ys)) = Text.splitWhitespace xs := by
  unfold firstLine Text.lines
  rw [Text.splitInclusive_append_cons ys h]
  exact Text.splitWhitespace_stripLineEnd xs

theorem splitWhitespace_firstLine_decodeLossy (received : Bytes)
    : Text.splitWhitespace (firstLine (Utf8.decodeLossy received))
        =
      Text.splitWhitespace (Utf8.decodeLossy (received.takeWhile (· ≠ newline))) := by
  have hascii : newline.toNat < 0x80 := by decide
  generalize hpre : received.takeWhile (· ≠ newline) = pre
  have hnotMem : newline ∉ pre := by
    intro hmem
    rw [← hpre] at hmem
    simpa using List.mem_takeWhile_imp hmem
  have hdecoded : '\n' ∉ Utf8.decodeLossy pre := Utf8.not_mem_decodeLossy hascii hnotMem
  have hsplit := List.takeWhile_append_dropWhile (p := (· ≠ newline)) (l := received)
  rw [hpre] at hsplit
  cases hpost : received.dropWhile (· ≠ newline) with
  | nil =>
    rw [hpost, List.append_nil] at hsplit
    rw [← hsplit, firstLine_of_not_mem hdecoded]
  | cons b post =>
    have hb : b = newline := by
      have := List.head?_dropWhile_not (· ≠ newline) received
      rw [hpost] at this
      simpa using this
    rw [hpost, hb] at hsplit
    rw [← hsplit, Utf8.decodeLossy_append_cons pre post hascii]
    exact splitWhitespace_firstLine (Utf8.decodeLossy post) hdecoded

theorem isMetrics_firstLine_decodeLossy (received : Bytes)
    : isMetrics (firstLine (Utf8.decodeLossy received))
        =
      isMetrics (Utf8.decodeLossy (received.takeWhile (· ≠ newline))) := by
  rw [Bool.eq_iff_iff, isMetrics_iff, isMetrics_iff, splitWhitespace_firstLine_decodeLossy]

theorem takeWhile_append_of_mem {xs : Bytes} (ys : Bytes) (h : newline ∈ xs)
    : (xs ++ ys).takeWhile (· ≠ newline) = xs.takeWhile (· ≠ newline) := by
  rw [List.takeWhile_append]
  split
  . next hlen =>
    have heq := (List.takeWhile_prefix (p := (· ≠ newline)) (l := xs)).eq_of_length hlen
    rw [← heq] at h
    simpa using List.mem_takeWhile_imp h
  . rfl

theorem takeWhile_of_not_mem {xs : Bytes} (h : newline ∉ xs) : xs.takeWhile (· ≠ newline) = xs := by
  apply List.takeWhile_eq_self_iff.mpr
  intro x hx
  have : x ≠ newline := by
    intro heq
    rw [heq] at hx
    contradiction
  simpa using this

theorem requestPrefix_eq (sent : Bytes)
    : requestPrefix sent = (sent.take bufLen).takeWhile (· ≠ newline) := by
  unfold requestPrefix
  split
  . next h =>
    have := takeWhile_append_of_mem (sent.drop bufLen) h
    rwa [List.take_append_drop] at this
  . next h => rw [takeWhile_of_not_mem h]

theorem takeWhile_received {received unread : Bytes} (hlen : received.length ≤ bufLen)
    (hexit : newline ∈ received ∨ received.length = bufLen ∨ unread = [])
    : received.takeWhile (· ≠ newline) = requestPrefix (received ++ unread) := by
  rw [requestPrefix_eq, List.take_append, List.take_of_length_le hlen]
  by_cases hmem : newline ∈ received
  . rw [takeWhile_append_of_mem _ hmem]
  . have hrest : unread.take (bufLen - received.length) = [] := by
      cases hexit.resolve_left hmem with
      | inl hfull => rw [hfull, Nat.sub_self, List.take_zero]
      | inr heof => rw [heof, List.take_nil]
    rw [hrest, List.append_nil]

def responseTo (rendered sent : Bytes) : Response :=
  respond rendered (isMetrics (Utf8.decodeLossy (requestPrefix sent)))

theorem requestPrefix_append_cons {pre : Bytes} (post : Bytes) (hmem : newline ∉ pre)
    (hlen : pre.length < bufLen)
    : requestPrefix (pre ++ newline :: post) = pre := by
  have hfits : (pre ++ [newline]).length ≤ bufLen := by
    rw [List.length_append, List.length_singleton]
    omega
  have hprefix := @takeWhile_received _ post hfits (.inl (by simp))
  rw [List.append_assoc, List.singleton_append] at hprefix
  rw [← hprefix, List.takeWhile_append, takeWhile_of_not_mem hmem, if_pos rfl]
  simp

theorem newline_not_mem_encode {line : List Char} (h : '\n' ∉ line)
    : newline ∉ Utf8.encode line := by
  intro hmem
  have ⟨xs, ys, hsplit⟩ := List.append_of_mem hmem
  have hline := Utf8.decodeLossy_encode line
  rw [hsplit, Utf8.decodeLossy_append_cons xs ys (by decide)] at hline
  have : '\n' ∈ line := by
    rw [← hline]
    simp [newline]
  contradiction

theorem responseTo_encode (rendered post : Bytes) {line : List Char} (hmem : '\n' ∉ line)
    (hlen : (Utf8.encode line).length < bufLen)
    : responseTo rendered (Utf8.encode line ++ newline :: post)
        =
      respond rendered (isMetrics line) := by
  unfold responseTo
  rw [requestPrefix_append_cons post (newline_not_mem_encode hmem) hlen, Utf8.decodeLossy_encode]

end Metrics
