import InnerLoop.Failure
import InnerLoop.Text.Blank
import InnerLoop.Object.Pod

/-!
# Ports in words

A port is given as `8080`, `8080/tcp` or `53/UDP`; without a protocol it is TCP. It is named by its
number and its protocol in lower case.
-/

namespace InnerLoop

/-- The port of a number and a protocol in capitals. -/
def ContainerPort.named (number : Int) (protocol : String) : ContainerPort where
  containerPort := number
  name := some (toString number ++ "-" ++ protocol.map Char.toLower)
  protocol := some protocol

/-- The protocol of a port: TCP unless one is given, in any letter case. -/
def parseProtocol : Option String → Except Failure String
  | none => .ok "TCP"
  | some p =>
    let p := p.map Char.toUpper
    if p = "TCP" ∨ p = "UDP" then .ok p else .error (.invalid (.portProtocol p))

/-- The number of a port. -/
def parsePortNumber (text : List Char) : Except Failure Int :=
  match Text.readInt32 text with
  | .error fault => .error (.invalid (.portNumber (String.ofList text) fault))
  | .ok n => if 1 ≤ n ∧ n ≤ 65535 then .ok n else .error (.invalid (.portRange n))

/-- Reads a port. -/
def parsePort (spec : String) : Except Failure ContainerPort :=
  match Text.splitAll '/' (Text.trim spec.toList) with
  | [number] => do
    let n ← parsePortNumber number
    .ok (.named n "TCP")
  | [number, protocol] => do
    let n ← parsePortNumber number
    let p ← parseProtocol (some (String.ofList protocol))
    .ok (.named n p)
  | _ => .error (.invalid (.portText spec))

end InnerLoop
