import SunwalkerBox.Basic
import SunwalkerBox.Utf8
import SunwalkerBox.Path.Bytes
import SunwalkerBox.Path.ResolveAbs
import SunwalkerBox.Path.Stack
import SunwalkerBox.Path.Checked
import SunwalkerBox.Path.Posix
import SunwalkerBox.Path.Loop
import SunwalkerBox.Mount.Table
import SunwalkerBox.Mount.Mark
import SunwalkerBox.Mount.Reset
import SunwalkerBox.Mount.Restore
import SunwalkerBox.Mount.Listing
import SunwalkerBox.Derive.Macro
import SunwalkerBox.Derive.Eval
import SunwalkerBox.Derive.Format
import SunwalkerBox.Derive.Read
import SunwalkerBox.Derive.RoundTrip
import SunwalkerBox.Derive.Entrypoint
import SunwalkerBox.Mount.Create
import SunwalkerBox.Mount.Layout
import SunwalkerBox.Mount.Configure
import SunwalkerBox.Mount.Fallible
