import LightLink.Message.Basic

/-!
# Commands

What a person can tell a module, and the message that says it.
-/

namespace LightLink

/-- A command for one module, or for all of them. -/
inductive Command where
  | value (output : UInt8) (value : Int16)
  | rgb (output : UInt8) (colour : Colour)
  | blink (output : UInt8) (onPeriod : UInt16) (on : Colour) (offPeriod : UInt16) (off : Colour)
  | timedChange (output : UInt8) (period : UInt32) (start stop : Colour)
  | fade (output : UInt8) (period : UInt32) (start stop : Colour) (flags : UInt8)
  | noProgram (output : UInt8)
  | poll
  | setAddress (deviceId newAddress : UInt16)
  | dumpConfig
  deriving DecidableEq, Repr

namespace Command

/-- The program that a command starts. -/
def program? : Command → Option Program
  | blink _ onPeriod on offPeriod off => some (.blink onPeriod on offPeriod off)
  | timedChange _ period start stop => some (.timedChange period start stop)
  | fade _ period start stop flags => some (.fade period start stop flags)
  | noProgram _ => some .stop
  | _ => none

/-- The message that gives a command to the module at `address`. -/
def toMessage (address : UInt16) : Command → Message
  | value output v => .value address output v
  | rgb output c => .rgb address output c
  | blink output onPeriod on offPeriod off =>
    .program address output (.blink onPeriod on offPeriod off)
  | timedChange output period start stop =>
    .program address output (.timedChange period start stop)
  | fade output period start stop flags =>
    .program address output (.fade period start stop flags)
  | noProgram output => .program address output .stop
  | poll => .poll address
  | setAddress deviceId newAddress => .setAddress address deviceId newAddress
  | dumpConfig => .dumpConfig address

/-- The command asks for data. -/
def expectsResponse : Command → Bool
  | poll => true
  | dumpConfig => true
  | _ => false

end Command

end LightLink
