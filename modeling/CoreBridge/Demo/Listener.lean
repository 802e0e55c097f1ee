import CoreBridge.Host.Callback
import CoreBridge.Wire.Specimens

/-!
# Listeners and greeters

Two callback contracts with host objects that fail in every way a method can.
A listener has a name and keeps the messages it was sent; a greeter has a manner.
-/
namespace CoreBridge.Demo

open CoreBridge.Host CoreBridge.Wire

/-- The earliest timestamp, which has no wire form. -/
def earliest : Timestamp :=
  { Timestamp.epoch with
    secs := -0x8000000000000000
    le_secs := Int.le_refl _
    secs_lt := by decide }

/-- The messages that each listener was sent, by its address. -/
abbrev Inbox := Table Nat (List String)

/-- The messages of the listener at an address. -/
def Inbox.messages (inbox : Inbox) (address : Nat) : List String := (inbox.get? address).getD []

def roomError : Ty := .named "RoomError"

/-- The error about a message without text. -/
def emptyBody : Value := .variant 2 3 [.text "body", .text "empty"]

/-- Keeps a message and answers how many there are; a message without text is an error. -/
def receive (listener : Instance String) : MethodM String Inbox Unit := do
  let message ← MethodM.read Reader.text
  if message.isEmpty then MethodM.fail (.ofError emptyBody)
  let frame ← get
  let messages := frame.objects.messages listener.address ++ [message]
  set { frame with objects := frame.objects.set listener.address messages }
  MethodM.write (.number 4 messages.length)

/-- The contract of listeners. -/
def listener : Contract String Inbox where
  name := "listener"
  invoke self
    | 1 => receive self
    | 2 => MethodM.panic (.text "reset is not supported")
    | 3 => do MethodM.panic (.text (← MethodM.read Reader.text))
    | 4 => MethodM.panic .other
    | 5 => do MethodM.fail (.unexpected (← MethodM.read Reader.text))
    | 6 => MethodM.fail .cancelled
    | 7 => do MethodM.fail (.protocol (.unknownHandle (← MethodM.read (Reader.number 8))))
    | 8 => MethodM.fail (.ofError (.timestamp earliest))
    | 9 => do
      let rest := (← get).args
      let bytes ← MethodM.read (Reader.take rest.length)
      MethodM.write (.bytesWithLength bytes)
    | 10 => MethodM.write (.timestamp earliest)
    | 11 => do
      let x ← MethodM.read (Reader.int .i32)
      let y ← MethodM.read (Reader.int .i32)
      MethodM.write (.int .i64 (x + y))
    | 12 => MethodM.fail (.error [])
    | 13 => MethodM.write (.text self.content)
    | 14 => return ()
    | method => Contract.unknownMethod "listener" method

/-- The manners of greeters. -/
inductive Manner where
  | polite | rude | asleep | garbled | silent | panicky
deriving DecidableEq, Repr

def Manner.all : List (String × Manner) :=
  [("polite", polite), ("rude", rude), ("asleep", asleep), ("garbled", garbled),
    ("silent", silent), ("panicky", panicky)]

def greetError : Ty := .named "GreetError"

/-- The error about a name that is turned away. -/
def notOnTheList : Value := .variant 1 2 [.text "not on the list"]

/-- Greets by name, or fails to, according to the manner. -/
def greetAs (manner : Manner) (name : String) : MethodM Manner Unit Unit :=
  match manner with
  | .polite =>
    if name = "mallory" then MethodM.fail (.ofError notOnTheList)
    else MethodM.write (.text s!"good day, {name}")
  | .rude => MethodM.fail (.unexpected s!"go away, {name}")
  | .asleep => MethodM.fail .cancelled
  | .garbled => MethodM.fail (.error [0, 0, 0, 9])
  | .silent => return ()
  | .panicky => MethodM.panic (.text name)

/-- The contract of greeters. -/
def greeter : Contract Manner Unit where
  name := "greeter"
  invoke self
    | 1 => do greetAs self.content (← MethodM.read Reader.text)
    | method => Contract.unknownMethod "greeter" method

end CoreBridge.Demo
