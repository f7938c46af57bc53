import ServiceMesh.Text.Blank

/-!
Readiness: a server is ready when a connection to its address can be made. The attempts follow each
other with growing pauses, and each of them is given up after a while.
-/

namespace ServiceMesh.Readiness

/-- What an attempt to connect meets: an answer after a while, and whether it is a connection. -/
structure Attempt where
  lasts : Nat := 0
  isAccepted : Bool
  deriving DecidableEq, Repr, Inhabited

/-- A listening address. What is met there can be another thing at each attempt, so it may begin to
accept connections at any time. -/
structure Address where
  ip : String
  port : UInt16
  /-- By the number of attempts made before. -/
  attempt : Nat → Attempt
  deriving Inhabited

def attempts : Nat := 30

/-- How long an answer is waited for, in milliseconds. -/
def attemptLimit : Nat := 100

/-- The pause after an attempt, in milliseconds, by the number of pauses before it. -/
def pause (n : Nat) : Nat := min (50 * Nat.pow 2 n) 500

/-- An address that stands for all of them is probed at the host itself. -/
def Address.reachable (a : Address) : String :=
  (if a.ip = "0.0.0.0" then "127.0.0.1" else a.ip) ++ ":" ++ toString a.port.toNat

/-- A duration in its largest unit, with as many decimals as it takes. -/
def describe (ms : Nat) : String :=
  if ms = 0 then "0ns"
  else if ms < 1000 then toString ms ++ "ms"
  else
    let digits := (toString (1000 + ms % 1000)).toList.drop 1
    let fraction := (digits.reverse.dropWhile (· = '0')).reverse
    toString (ms / 1000) ++ (if fraction = [] then "" else "." ++ String.ofList fraction) ++ "s"

/-- How the attempts end when so many are left: after how long, and whether there is a
connection. -/
def Address.connect (a : Address) : Nat → Nat × Bool
  | 0 => (0, false)
  | left + 1 =>
    let number := attempts - (left + 1)
    let met := a.attempt number
    if met.isAccepted ∧ met.lasts ≤ attemptLimit then (met.lasts, true)
    else
      let (ms, isReady) := connect a left
      (min met.lasts attemptLimit + pause number + ms, isReady)

/-- How a probe ends: after how long, and why it failed if it did. -/
def probe (server : String) (a : Address) (timeout : Nat) : Nat × Option String :=
  let (ms, isReady) := a.connect attempts
  if timeout < ms then
    (timeout, some ("server " ++ server ++ " ready check timeout after " ++ describe timeout ++
      ": deadline has elapsed"))
  else if isReady then (ms, none)
  else
    (ms, some ("server " ++ server ++ " not ready: unavailable: server " ++ a.reachable ++
      " not ready after " ++ toString attempts ++ " attempts"))

end ServiceMesh.Readiness
