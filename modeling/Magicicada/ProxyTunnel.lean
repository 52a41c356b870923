import Magicicada.Errors
import Magicicada.Wire
import Magicicada.Prog

/-!
The tunnel through an https proxy: `proxy_tunnel.py`.

`startTLS`, `buildProtocol` and the wrapped protocol return. What the client calls on others is
kept in order.
-/

namespace Magicicada.ProxyTunnel

open Errors Bytes Wire Prog

/-! ### The client -/

/-- What is told to the wrapped factory when a connection fails. -/
inductive Reason
  /-- "Error in proxy negotiation: Line too long". -/
  | lineTooLong
  /-- "Error in proxy negotiation: %s %s" with the status and the message. -/
  | negotiation (status message : Option Bytes)
  /-- The reason of `connectionLost`. -/
  | lost (reason : ℕ)
  deriving DecidableEq

/-- A call the client makes. -/
inductive Call
  | transportWrite (data : Bytes)
  | loseConnection
  | startTLS
  /-- Of the wrapped factory. -/
  | clientConnectionFailed (reason : Reason)
  | buildProtocol
  /-- Of the protocol it built. -/
  | makeConnection
  | dataReceived (data : Bytes)
  | connectionLost (reason : ℕ)
  deriving DecidableEq

/-- What the proxy is asked for: a `ProxyTunnelFactory`. -/
structure Factory where
  host : String
  port : ℕ
  /-- The user and the password, encoded. -/
  user : Option (Bytes × Bytes) := none

/-- A `ProxyTunnelClient`. Its private buffer is None until the connection is made. -/
structure Client where
  factory : Factory
  buffer : Bytes := []
  clientProtocol : Bool := false
  negotiationDone : Bool := false
  message : Option Bytes := none
  status : Option Bytes := none
  calls : List Call := []

abbrev M := EStateM Exn Client

/-- `MAX_LINE_LEN`. -/
def maxLineLen : ℕ := 2 ^ 14

def call (c : Call) : M PUnit := modify fun t => { t with calls := t.calls ++ [c] }

/-! ### The request -/

/-- `write_line`. -/
def writeLine (line : String) : M PUnit := call (.transportWrite (utf8 (line ++ "\r\n")))

def sendHeader (name value : String) : M PUnit := writeLine (name ++ ": " ++ value)

def base64Alphabet : List Char :=
  "ABCDEFGHIJKLMNOPQRSTUVWXYZabcdefghijklmnopqrstuvwxyz0123456789+/".toList

/-- The digits of a number below `64 ^ n`. -/
def base64Digits (n k : ℕ) : List Char :=
  (List.range n).map fun i => base64Alphabet.getD (k / 64 ^ (n - 1 - i) % 64) '='

/-- `base64.b64encode`. -/
def b64encode : Bytes → List Char
  | a :: b :: c :: r =>
    base64Digits 4 (a.toNat * 2 ^ 16 + b.toNat * 2 ^ 8 + c.toNat) ++ b64encode r
  | [a, b] => base64Digits 3 ((a.toNat * 2 ^ 8 + b.toNat) * 4) ++ ['=']
  | [a] => base64Digits 2 (a.toNat * 16) ++ ['=', '=']
  | [] => []

example : String.ofList (b64encode (utf8 "test:test")) = "dGVzdDp0ZXN0" := by decide

def connectionMade : M PUnit := do
  modify fun t => { t with negotiationDone := false, clientProtocol := false, buffer := [] }
  -- send request
  let t ← get
  writeLine ("CONNECT " ++ t.factory.host ++ ":" ++ toString t.factory.port ++ " HTTP/1.0")
  -- send headers
  sendHeader "Host" t.factory.host
  -- do auth
  match t.factory.user with
  | none => pure ⟨⟩
  | some (user, passwd) =>
    sendHeader "Proxy-Authorization"
      ("Basic " ++ String.ofList (b64encode (user ++ utf8 ":" ++ passwd)))
  writeLine ""

/-! ### The response -/

/-- Got an error. -/
def error (reason : Reason) : M PUnit := do
  call (.clientConnectionFailed reason)
  call .loseConnection

/-- `start`. -/
def start : M PUnit := do
  call .startTLS
  call .buildProtocol
  modify fun t => { t with clientProtocol := true }
  call .makeConnection

def space : UInt8 := 32

/-- `version, status = line.split(b" ", 2)[:2]` and the message after them. -/
def statusOf (line : Bytes) : Option (Bytes × Bytes) :=
  match line.dropWhile (· ≠ space) with
  | [] => none
  | _ :: r =>
    some (r.takeWhile (· ≠ space), (r.dropWhile (· ≠ space)).drop 1)

/-- The status with which the tunnel is there. -/
def connected : Bytes := utf8 "200"

/-- `lineReceived`. -/
def lineReceived (line : Bytes) : M PUnit :=
  if line ≠ [] then
    match statusOf line with
    | none => throw (.valueError "not enough values to unpack (expected 2, got 1)")
    | some (status, message) =>
      modify fun t => { t with status := some status, message := some message }
  else do
    let t ← get
    if t.status = some connected then do
      modify fun t => { t with negotiationDone := true }
      start
    else error (.negotiation t.status t.message)

/-- The loop of `dataReceived`. -/
def readLines : ℕ → M PUnit
  | 0 => throw .outOfFuel
  | fuel + 1 => do
    let t ← get
    if t.negotiationDone then pure ⟨⟩
    else
      match indexCrlf t.buffer with
      | none => if maxLineLen < t.buffer.length then error .lineTooLong else pure ⟨⟩
      | some pos => do
        let line := t.buffer.take pos
        modify fun t => { t with buffer := t.buffer.drop (pos + 2) }
        if maxLineLen < line.length then error .lineTooLong
        else do
          lineReceived line
          readLines fuel

def dataReceived (data : Bytes) : M PUnit := do
  let t ← get
  if t.negotiationDone then call (.dataReceived data)
  else do
    modify fun t => { t with buffer := t.buffer ++ data }
    -- every round but the last takes a line from the buffer
    readLines ((t.buffer ++ data).length + 1)

def connectionLost (reason : ℕ) : M PUnit := do
  let t ← get
  if t.negotiationDone then call (.connectionLost reason) else error (.lost reason)

end Magicicada.ProxyTunnel
