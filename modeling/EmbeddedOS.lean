import EmbeddedOS.Hw3.Refusals
import EmbeddedOS.Hw3.LogDecode
import EmbeddedOS.Hw3.Leftovers
import EmbeddedOS.Hw3.Identity
import EmbeddedOS.Hw3.Ranking
import EmbeddedOS.Hw3.Framing
import EmbeddedOS.Hw3.Listing
import EmbeddedOS.Hw3.Grammar
import EmbeddedOS.Hw3.Receiving
import EmbeddedOS.Hw3.Loading
import EmbeddedOS.Hw3.Expected
import EmbeddedOS.Hw3.Shutdown
import EmbeddedOS.Hw3.Audit
import EmbeddedOS.Hw3.Standings
import EmbeddedOS.Hw3.Completion
import EmbeddedOS.Lab3.Keypad
import EmbeddedOS.Lab3.Display
import EmbeddedOS.Lab3.Session
import EmbeddedOS.Lab6.Balance
import EmbeddedOS.Lab4.Display
import EmbeddedOS.Lab5.Server
import EmbeddedOS.Lab6.Decoder
import EmbeddedOS.Lab6.Service
import EmbeddedOS.Lab7.Bisection
import EmbeddedOS.Lab7.Timing
import EmbeddedOS.Hw1.Purchases
import EmbeddedOS.Hw1.Stock
import EmbeddedOS.Hw1.RoundTrip
import EmbeddedOS.Hw2.InStep
import EmbeddedOS.Hw2.Extension
import EmbeddedOS.Hw2.Tokens
import EmbeddedOS.Board.Eeprom
import EmbeddedOS.Board.Keypad
import EmbeddedOS.Board.Screen
import EmbeddedOS.Hw3.Rations
