/-!
# Durations

Deadlines are set in whole milliseconds, and delays only matter beside a deadline, so nothing finer
is kept. A duration is written in seconds when it is at least one second, with as many decimals as
it needs, and in milliseconds otherwise.
-/

namespace TypedSql

/-- A length of time. -/
structure Duration where
  milliseconds : Nat
  deriving DecidableEq

namespace Duration

/-- The decimals of a fraction of a second, with the point in front. -/
def decimals (milliseconds : Nat) : List Char :=
  let digits := [100, 10, 1].map fun unit => Nat.digitChar (milliseconds / unit % 10)
  match (digits.reverse.dropWhile (· == '0')).reverse with
  | [] => []
  | kept => '.' :: kept

/-- The form in messages. -/
def text (d : Duration) : String :=
  if d.milliseconds = 0 then "0ns"
  else if d.milliseconds < 1000 then s!"{d.milliseconds}ms"
  else
    let fraction := String.ofList (decimals (d.milliseconds % 1000))
    s!"{d.milliseconds / 1000}{fraction}s"

end Duration

end TypedSql
