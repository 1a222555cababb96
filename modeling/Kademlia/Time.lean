namespace Kademlia

/-!
Time and chance enter the library as data.  Instants and durations are numbers of milliseconds, and
random values are taken from an endless supply that the caller provides.
-/

/-- A point in time, in milliseconds since the clock started. -/
abbrev Instant := Nat

/-- A span of time in milliseconds. -/
abbrev Duration := Nat

namespace Duration

def seconds (n : Nat) : Duration := 1000 * n

def minutes (n : Nat) : Duration := seconds (60 * n)

end Duration

/-- An endless supply of random values, the first of which have been drawn already. -/
structure Draws (α : Type) where
  value : Nat → α
  drawn : Nat

namespace Draws

variable {α : Type}

/-- The next value of a supply, and the supply without it. -/
def next (supply : Draws α) : α × Draws α :=
  (supply.value supply.drawn, { supply with drawn := supply.drawn + 1 })

/-- The supply that runs through a list over and over again; an empty list supplies the default
value. -/
def cycle [Inhabited α] (values : List α) : Draws α :=
  ⟨fun n => values.getD (n % values.length) default, 0⟩

instance [Inhabited α] : Inhabited (Draws α) := ⟨cycle []⟩

end Draws
end Kademlia
