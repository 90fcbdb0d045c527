import GrammarProfile.Text.Runs

/-!
Properties that a character has or lacks, as runs labelled `y` and `n`. The last run takes in all
characters that follow.
-/
namespace GrammarProfile.Text

def asciiHexDigitRuns : Runs := .ofText [
  "48n10y7n6y26n6y1n"]

def alphabeticRuns : Runs := .ofText [
  "65n26y6n26y47n1y10n1y4n1y5n23y1n31y1n458y4n12y14n5y7n1y1n1y86n1y42n5y1n2y2n4y1n1y6n1y1n3y1n",
  "1y1n20y1n83y1n139y8n166y1n38y2n1y6n41y39n14y1n1y1n2y1n2y1n1y8n27y4n4y29n11y5n56y1n7y14n102y",
  "1n8y4n8y4n3y10n3y2n1y16n48y13n101y24n33y9n2y4n1y5n24y2n19y19n25y7n11y5n24y1n6y17n42y10n12y",
  "3n7y6n76y1n16y1n3y4n15y13n19y1n8y2n2y2n22y1n7y1n1y3n4y3n8y2n2y2n2y1n1y8n1y4n2y1n5y12n2y10n",
  "1y4n3y1n6y4n2y2n22y1n7y1n2y1n2y1n2y4n5y4n2y2n2y4n1y7n4y1n1y17n6y11n3y1n9y1n3y1n22y1n7y1n2y",
  "1n5y3n9y1n3y1n2y3n1y15n4y21n4y4n3y1n8y2n2y2n22y1n7y1n2y1n5y3n8y2n2y2n2y9n2y4n2y1n5y13n1y16n",
  "2y1n6y3n3y1n4y3n2y1n1y1n2y3n2y3n3y3n12y4n5y3n3y1n3y3n1y6n1y40n13y1n3y1n23y1n16y3n8y1n3y1n3y",
  "8n2y1n3y2n1y2n4y28n4y1n8y1n3y1n23y1n10y1n5y3n8y1n3y1n3y8n2y6n2y1n4y13n3y12n13y1n3y1n41y2n8y",
  "1n3y1n3y1n1y5n4y7n5y22n6y1n3y1n18y3n24y1n9y1n1y2n7y8n6y1n1y1n8y18n2y13n58y5n7y6n1y51n2y1n1y",
  "1n5y1n24y1n1y1n19y1n3y2n5y1n1y6n1y14n4y32n1y63n8y1n36y4n19y4n16y1n36y67n55y1n1y2n5y16n64y",
  "10n4y2n38y1n1y5n1y2n43y1n333y1n4y2n7y1n1y1n4y2n41y1n4y2n33y1n4y2n7y1n1y1n4y2n15y1n57y1n4y2n",
  "67y37n16y16n86y2n6y3n620y2n17y1n26y5n75y3n11y7n20y11n21y12n20y12n13y1n3y1n2y12n52y2n19y14n",
  "1y4n1y67n89y7n43y5n70y10n31y1n12y4n9y23n30y2n5y11n44y4n26y54n28y4n63y2n20y50n1y23n2y11n3y",
  "49n52y1n15y1n8y51n42y2n4y10n44y1n11y14n55y22n3y10n36y2n9y7n43y2n3y41n4y1n6y1n2y3n1y5n192y",
  "39n14y11n278y2n6y2n38y2n6y2n8y1n1y1n1y1n1y1n31y2n53y1n7y1n1y3n3y1n7y3n4y2n6y4n13y5n3y1n7y",
  "116n1y13n1y16n13y101n1y4n1y2n10y1n1y3n5y6n1y1n1y1n1y1n4y1n11y2n4y5n5y4n1y17n41y813n52y1814n",
  "229y6n4y3n2y12n38y1n1y5n1y2n56y7n1y16n23y9n7y1n7y1n7y1n7y1n7y1n7y1n7y1n7y1n32y47n1y469n3y",
  "25n9y7n5y2n5y4n86y6n3y1n90y1n4y5n43y1n94y17n32y48n16y512n6592y64n22157y67n46y2n269y3n16y10n",
  "2y20n47y5n8y3n113y39n9y2n103y2n64y5n2y1n1y1n5y24n20y1n33y24n52y12n68y1n1y44n6y3n1y1n3y10n",
  "33y5n35y13n29y3n51y1n12y15n1y16n16y10n5y1n55y9n14y18n23y3n69y1n1y1n1y24n3y2n16y2n4y11n6y2n",
  "6y2n6y9n7y1n7y1n43y1n14y6n123y21n11172y12n23y4n49y8452n366y2n106y38n7y12n5y5n12y1n13y1n5y1n",
  "1y1n2y1n2y1n108y33n363y18n64y2n54y40n12y116n5y1n135y36n26y6n26y11n89y3n6y2n6y2n6y2n3y35n12y",
  "1n26y1n19y1n2y1n15y2n14y34n123y69n53y267n29y3n49y47n32y13n30y5n43y5n30y2n36y4n8y1n5y42n158y",
  "18n36y4n36y4n40y8n52y12n11y1n15y1n7y1n2y1n11y1n15y1n7y1n2y67n311y9n22y10n8y24n6y1n42y1n9y",
  "69n6y2n1y1n44y1n2y3n1y2n23y10n23y9n31y65n19y1n2y10n22y10n26y70n56y6n2y64n4y1n2y5n8y1n3y1n",
  "29y42n29y3n29y35n8y1n28y27n54y10n22y10n19y13n18y110n73y55n51y13n51y13n40y344n42y1n2y3n2y78n",
  "29y10n1y8n22y42n18y46n21y27n23y9n70y43n5y10n57y9n1y13n25y23n51y17n4y8n35y3n1y9n64y1n4y9n2y",
  "10n1y1n1y35n18y1n34y2n1y6n4y62n7y1n1y1n4y1n15y1n10y7n57y23n4y1n8y2n2y2n22y1n7y1n2y1n5y3n8y",
  "2n2y2n2y3n1y6n1y5n7y156n66y1n3y1n4y20n3y30n66y2n2y1n1y184n54y2n7y25n6y34n63y1n1y3n1y59n54y",
  "2n1y71n27y2n14y21n7y185n57y103n64y31n8y2n1y2n8y1n2y1n30y1n2y2n2y2n4y93n8y2n46y2n6y1n1y1n2y",
  "27n51y2n10y17n72y5n1y18n73y263n9y1n45y1n7y1n1y49n30y2n22y1n14y73n7y1n2y1n44y3n1y1n2y1n3y1n",
  "1y2n2y24n6y1n2y1n37y1n2y1n4y1n1y327n23y9n17y1n41y3n3y111n1y79n922y102n111y17n196y2636n97y",
  "15n1072y17n6y4025n583y8633n569y7n31y17n79y17n30y18n48y16n4y31n21y5n19y688n64y128n75y4n57y7n",
  "17y64n2y1n1y12n2y14n6136y8n1238y42n9y8935n4y1n7y1n2y1n291y15n1y29n3y2n1y14n4y8n396y2308n",
  "107y5n13y3n9y7n10y4n1y5985n85y1n71y1n2y2n1y2n2y2n4y1n12y1n1y1n7y1n65y1n4y2n8y1n7y1n28y1n4y",
  "1n5y1n1y3n7y1n340y2n25y1n25y1n31y1n25y1n31y1n25y1n31y1n25y1n31y1n25y1n8y1844n31y6n6y213n7y",
  "1n17y2n7y1n2y1n5y5n62y33n1y112n45y10n7y16n1y321n30y18n44y484n28y756n7y1n4y1n2y1n15y1n197y",
  "59n68y3n1y3n1y1204n4y1n27y1n2y1n1y2n1y1n10y1n4y1n1y1n1y6n1y4n1y1n1y1n1y1n3y1n2y1n1y2n1y1n1y",
  "1n1y1n1y1n1y1n2y1n1y2n4y1n7y1n4y1n4y1n1y1n10y1n17y5n3y1n5y1n17y628n26y6n26y6n26y3702n42720y",
  "32n4154y6n222y2n5762y14n7473y3103n542y1506n4939y5n4192y1n"]

def bidiControlRuns : Runs := .ofText [
  "1564n1y6641n2y26n5y55n4y1n"]

def bidiMirroredRuns : Runs := .ofText [
  "40n2y18n1y1n1y28n1y1n1y29n1y1n1y45n1y15n1y3710n4y1885n2y2460n2y10n2y54n2y14n2y177n1y192n4y",
  "3n6y3n1y3n2y3n4y1n4y1n1y1n1y4n9y5n1y1n18y5n4y9n2y1n1y1n8y2n31y2n4y5n1y9n2y2n19y5n2y9n5y2n2y",
  "4n24y2n16y8n4y20n2y7n2y1085n14y74n1y2n4y1n2y1n3y5n4y5n3y3n14y403n22y2n6y1n14y8n1y7n6y3n1y4n",
  "5y1n2y2n5y4n1y1n3y2n2y10n6y2n2y12n19y1n4y2n1y1n1y2n1y1n4y5n2y6n3y24n2y11n2y4n4y1n2y2n2y4n",
  "43y2n8y1n40y5n1y1n1y3n5y5n3y4n1y3n5y1n1y256n1y515n4y3n2y1n2y14n2y2n10y43n8y427n10y2n8y",
  "52797n6y5n2y162n2y18n1y1n1y28n1y1n1y29n1y1n1y1n2y1n2y55159n1y57n1y57n1y57n1y57n1y1n"]

def caseIgnorableRuns : Runs := .ofText [
  "39n1y6n1y11n1y35n1y1n1y71n1y4n1y1n1y4n1y2n2y503n192y4n2y4n1y9n2y1n1y251n7y207n1y5n1y49n45y",
  "1n1y1n2y1n2y1n1y44n1y11n6y10n11y1n1y35n1y10n21y16n1y101n8y1n10y1n4y33n1y1n1y30n27y91n11y58n",
  "11y4n1y2n1y24n24y43n3y44n1y7n2y6n8y41n58y55n1y1n1y4n8y4n1y3n7y10n2y13n1y15n1y58n1y4n4y8n1y",
  "20n2y26n1y2n2y57n1y4n2y4n2y2n3y3n1y30n2y3n1y11n2y57n1y4n5y1n2y4n1y20n2y22n6y1n1y58n1y2n1y1n",
  "4y8n1y7n2y11n2y30n1y61n1y12n1y50n1y3n1y55n1y1n3y5n3y1n4y7n2y11n2y29n1y58n1y2n1y6n1y5n2y20n",
  "2y28n2y57n2y4n4y8n1y20n2y29n1y72n1y7n3y1n1y90n1y2n7y11n9y98n1y2n9y9n1y1n7y73n2y27n1y1n1y1n",
  "1y55n14y1n5y1n2y5n11y1n36y9n1y102n4y1n6y1n2y2n2y25n2y4n3y16n4y13n1y2n2y6n1y15n1y94n1y608n3y",
  "946n3y29n2y30n2y30n2y64n2y1n7y8n1y2n11y3n1y5n1y45n5y51n1y65n2y34n1y118n3y4n2y9n1y6n3y219n2y",
  "2n1y58n1y1n7y1n1y1n1y2n8y6n10y2n1y39n1y8n31y49n4y48n1y1n5y1n1y5n1y40n9y12n2y32n4y2n2y1n3y",
  "56n1y1n2y3n1y1n3y58n8y2n2y64n6y82n3y1n13y1n7y4n1y6n1y3n2y50n63y13n1y34n101y445n1y1n3y11n3y",
  "13n3y13n3y13n2y12n5y8n2y10n1y2n1y2n5y49n5y1n10y1n1y13n1y16n13y51n33y2955n2y113n3y125n1y15n",
  "1y96n32y47n1y469n1y36n4y3n5y5n1y93n6y93n3y28438n1y1250n6y270n1y98n4y1n10y1n1y28n4y80n2y14n",
  "34y78n1y23n3y103n3y3n2y8n1y3n1y4n1y25n2y5n1y151n2y26n18y13n1y38n8y25n11y46n3y48n1y2n4y2n2y",
  "17n1y21n2y66n6y2n2y2n2y12n1y8n1y35n1y11n1y51n1y1n3y2n2y5n2y1n1y27n1y14n2y5n2y1n1y100n5y9n3y",
  "121n1y2n1y4n1y20272n1y147n17y573n16y3n1y12n16y34n1y2n1y169n1y7n1y6n1y11n1y35n1y1n1y47n1y45n",
  "2y67n1y21n3y513n1y226n1y149n5y1029n6y1n42y1n9y582n3y1n2y5n4y40n3y4n1y165n2y573n4y387n2y80n",
  "3y70n11y49n4y123n1y54n15y41n1y2n2y10n3y49n4y2n2y2n1y4n1y10n1y50n3y36n5y1n8y62n1y12n2y52n9y",
  "10n4y2n1y95n3y2n1y1n2y6n1y2n1y157n1y3n8y21n2y57n2y3n1y37n7y3n5y195n8y2n3y1n1y23n1y84n6y1n1y",
  "4n2y1n2y238n4y6n2y1n2y27n2y85n8y2n1y1n2y106n1y1n1y2n6y1n1y101n3y2n4y1n5y259n9y1n2y256n2y1n",
  "1y4n1y144n4y2n2y4n1y32n10y40n6y2n4y8n1y9n6y2n3y46n13y1n2y406n7y1n6y1n1y82n22y2n7y1n2y1n2y",
  "122n6y3n1y1n2y1n7y1n1y72n2y3n1y1n1y347n2y11n2y52n5y5n1y1n1y5357n17y6n15y13978n5y59n7y9n4y",
  "1035n1y63n17y64n2y1n2y16395n4y1n7y1n2y3230n2y1n4y4700n46y2n23y544n3y9n16y2n7y30n4y148n3y",
  "1979n55y4n50y8n1y14n1y22n5y1n15y1360n7y1n17y2n7y1n2y1n5y5n62y33n1y160n14y368n1y61n4y507n5y",
  "992n7y109n8y2735n5y789505n1y30n96y128n240y1n"]

def casedRuns : Runs := .ofText [
  "65n26y6n26y47n1y10n1y4n1y5n23y1n31y1n195y1n4y4n208y1n36y7n2y30n5y96n1y42n4y2n2y2n4y1n1y6n1y",
  "1n3y1n1y1n20y1n83y1n139y8n166y1n38y9n41y2839n38y1n1y5n1y2n43y1n4y672n86y2n6y2178n9y7n43y2n",
  "3y64n192y64n278y2n6y2n38y2n6y2n8y1n1y1n1y1n1y1n31y2n53y1n7y1n1y3n3y1n7y3n4y2n6y4n13y5n3y1n",
  "7y116n1y13n1y16n13y101n1y4n1y2n10y1n1y3n5y6n1y1n1y1n1y1n4y1n6y4n1y2n4y5n5y4n1y17n32y3n2y",
  "817n52y1814n229y6n4y3n2y12n38y1n1y5n1y30994n46y18n30y132n102y3n4y1n59y5n2y1n1y1n5y24n5y1n3y",
  "821n43y1n14y6n80y20288n7y12n5y1033n26y6n26y1189n80y96n36y4n36y116n11y1n15y1n7y1n2y1n11y1n",
  "15y1n7y1n2y451n1y2n3y1n42y1n9y1221n51y13n51y2989n64y21856n64y25984n85y1n71y1n2y2n1y2n2y2n4y",
  "1n12y1n1y1n7y1n65y1n4y2n8y1n7y1n28y1n4y1n5y1n1y3n7y1n340y2n25y1n25y1n31y1n25y1n31y1n25y1n",
  "31y1n25y1n31y1n25y1n8y1844n10y1n20y6n6y261n62y2194n68y2028n26y6n26y6n26y1n"]

def changesWhenCasefoldedRuns : Runs := .ofText [
  "65n26y90n1y10n23y1n8y32n1y1n1y1n1y1n1y1n1y1n1y1n1y1n1y1n1y1n1y1n1y1n1y1n1y1n1y1n1y1n1y1n1y",
  "1n1y1n1y1n1y1n1y1n1y1n1y1n1y1n1y1n1y1n1y1n1y2n1y1n1y1n1y1n1y1n1y1n1y1n1y1n1y1n2y1n1y1n1y1n",
  "1y1n1y1n1y1n1y1n1y1n1y1n1y1n1y1n1y1n1y1n1y1n1y1n1y1n1y1n1y1n1y1n1y1n1y1n1y1n1y1n2y1n1y1n1y",
  "1n1y1n2y1n1y1n2y1n3y2n4y1n2y1n3y3n2y1n2y1n1y1n1y1n2y1n1y2n1y1n2y1n3y1n1y1n2y3n1y7n2y1n2y1n",
  "2y1n1y1n1y1n1y1n1y1n1y1n1y1n1y1n1y2n1y1n1y1n1y1n1y1n1y1n1y1n1y1n1y1n1y2n2y1n1y1n3y1n1y1n1y",
  "1n1y1n1y1n1y1n1y1n1y1n1y1n1y1n1y1n1y1n1y1n1y1n1y1n1y1n1y1n1y1n1y1n1y1n1y1n1y1n1y1n1y1n1y1n",
  "1y1n1y1n1y1n1y1n1y7n2y1n2y2n1y1n4y1n1y1n1y1n1y1n1y246n1y42n1y1n1y3n1y8n1y6n1y1n3y1n1y1n2y1n",
  "17y1n9y22n1y12n3y3n2y1n1y1n1y1n1y1n1y1n1y1n1y1n1y1n1y1n1y1n1y1n1y1n1y1n2y2n2y1n1y1n2y2n51y",
  "48n1y1n1y1n1y1n1y1n1y1n1y1n1y1n1y1n1y1n1y1n1y1n1y1n1y1n1y1n1y1n1y1n1y9n1y1n1y1n1y1n1y1n1y1n",
  "1y1n1y1n1y1n1y1n1y1n1y1n1y1n1y1n1y1n1y1n1y1n1y1n1y1n1y1n1y1n1y1n1y1n1y1n1y1n1y1n1y1n1y1n2y",
  "1n1y1n1y1n1y1n1y1n1y1n1y2n1y1n1y1n1y1n1y1n1y1n1y1n1y1n1y1n1y1n1y1n1y1n1y1n1y1n1y1n1y1n1y1n",
  "1y1n1y1n1y1n1y1n1y1n1y1n1y1n1y1n1y1n1y1n1y1n1y1n1y1n1y1n1y1n1y1n1y1n1y1n1y1n1y1n1y1n1y1n1y",
  "1n1y1n1y1n1y1n1y1n1y1n1y1n1y1n1y1n1y2n38y48n1y2840n38y1n1y5n1y810n6y2178n9y7n43y2n3y320n1y",
  "1n1y1n1y1n1y1n1y1n1y1n1y1n1y1n1y1n1y1n1y1n1y1n1y1n1y1n1y1n1y1n1y1n1y1n1y1n1y1n1y1n1y1n1y1n",
  "1y1n1y1n1y1n1y1n1y1n1y1n1y1n1y1n1y1n1y1n1y1n1y1n1y1n1y1n1y1n1y1n1y1n1y1n1y1n1y1n1y1n1y1n1y",
  "1n1y1n1y1n1y1n1y1n1y1n1y1n1y1n1y1n1y1n1y1n1y1n1y1n1y1n1y1n1y1n1y1n1y1n1y1n1y1n1y1n1y1n1y1n",
  "1y1n1y1n1y1n1y1n1y1n1y1n1y5n2y2n1y1n1y1n1y1n1y1n1y1n1y1n1y1n1y1n1y1n1y1n1y1n1y1n1y1n1y1n1y",
  "1n1y1n1y1n1y1n1y1n1y1n1y1n1y1n1y1n1y1n1y1n1y1n1y1n1y1n1y1n1y1n1y1n1y1n1y1n1y1n1y1n1y1n1y1n",
  "1y1n1y1n1y1n1y1n1y1n1y1n1y1n1y1n1y1n1y1n1y1n1y9n8y8n6y10n8y8n8y8n6y11n1y1n1y1n1y1n1y8n8y16n",
  "48y2n3y2n6y5n3y2n6y11n4y12n5y5n3y2n6y297n1y3n2y6n1y45n16y19n1y818n26y1840n48y48n1y1n3y2n1y",
  "1n1y1n1y1n4y1n1y2n1y8n3y1n1y1n1y1n1y1n1y1n1y1n1y1n1y1n1y1n1y1n1y1n1y1n1y1n1y1n1y1n1y1n1y1n",
  "1y1n1y1n1y1n1y1n1y1n1y1n1y1n1y1n1y1n1y1n1y1n1y1n1y1n1y1n1y1n1y1n1y1n1y1n1y1n1y1n1y1n1y1n1y",
  "1n1y1n1y1n1y1n1y1n1y1n1y1n1y1n1y1n1y1n1y8n1y1n1y4n1y31053n1y1n1y1n1y1n1y1n1y1n1y1n1y1n1y1n",
  "1y1n1y1n1y1n1y1n1y1n1y1n1y1n1y1n1y1n1y1n1y1n1y1n1y1n1y1n1y19n1y1n1y1n1y1n1y1n1y1n1y1n1y1n1y",
  "1n1y1n1y1n1y1n1y1n1y1n1y135n1y1n1y1n1y1n1y1n1y1n1y1n1y3n1y1n1y1n1y1n1y1n1y1n1y1n1y1n1y1n1y",
  "1n1y1n1y1n1y1n1y1n1y1n1y1n1y1n1y1n1y1n1y1n1y1n1y1n1y1n1y1n1y1n1y1n1y1n1y1n1y1n1y1n1y1n1y10n",
  "1y1n1y1n2y1n1y1n1y1n1y1n1y4n1y1n1y2n1y1n1y3n1y1n1y1n1y1n1y1n1y1n1y1n1y1n1y1n1y1n1y1n5y1n5y",
  "1n1y1n1y1n1y1n1y1n1y1n1y1n1y1n4y1n1y6n1y5n1y1n1y28n1y890n80y20288n7y12n5y1033n26y1221n40y",
  "136n36y156n11y1n15y1n7y1n2y1770n51y3053n32y21888n32y31392n34y1n"]

def changesWhenCasemappedRuns : Runs := .ofText [
  "65n26y6n26y58n1y10n23y1n31y1n64y1n84y1n13y1n14y2n14y2n2y1n1y4n93y1n18y6n27y1n2y1n1y1n2y3n2y",
  "1n1y1n2y1n5y2n1y1n2y2n1y7n1y2n1y1n2y3n6y5n1y10n2y166n1y42n4y2n2y3n3y1n1y6n1y1n3y1n1y1n20y1n",
  "47y3n33y1n5y1n133y8n166y1n38y10n39y2840n38y1n1y5n1y2n43y2n3y672n86y2n6y2178n9y7n43y2n3y185n",
  "1y3n1y16n1y113n156y2n1y1n118y2n6y2n38y2n6y2n8y1n1y1n1y1n1y1n31y2n53y1n7y1n1y3n3y1n7y3n4y2n",
  "6y4n13y5n3y1n7y297n1y3n2y6n1y27n1y17n32y3n2y817n52y1814n113y1n2y1n2y7n102y7n4y3n2y12n38y1n",
  "1y5n1y30994n46y18n28y134n14y2n62y9n15y3n3y2n5y1n25y1n27y5n2y4n4y27n2y860n1y28n80y20288n7y",
  "12n5y1033n26y6n26y1189n80y96n36y4n36y116n11y1n15y1n7y1n2y1n11y1n15y1n7y1n2y1731n51y13n51y",
  "2989n64y21856n64y31360n68y1n"]

def changesWhenLowercasedRuns : Runs := .ofText [
  "65n26y101n23y1n7y33n1y1n1y1n1y1n1y1n1y1n1y1n1y1n1y1n1y1n1y1n1y1n1y1n1y1n1y1n1y1n1y1n1y1n1y",
  "1n1y1n1y1n1y1n1y1n1y1n1y1n1y1n1y1n1y1n1y2n1y1n1y1n1y1n1y1n1y1n1y1n1y1n1y2n1y1n1y1n1y1n1y1n",
  "1y1n1y1n1y1n1y1n1y1n1y1n1y1n1y1n1y1n1y1n1y1n1y1n1y1n1y1n1y1n1y1n1y1n1y1n1y1n2y1n1y1n1y3n2y",
  "1n1y1n2y1n3y2n4y1n2y1n3y3n2y1n2y1n1y1n1y1n2y1n1y2n1y1n2y1n3y1n1y1n2y3n1y7n2y1n2y1n2y1n1y1n",
  "1y1n1y1n1y1n1y1n1y1n1y1n1y2n1y1n1y1n1y1n1y1n1y1n1y1n1y1n1y1n1y2n2y1n1y1n3y1n1y1n1y1n1y1n1y",
  "1n1y1n1y1n1y1n1y1n1y1n1y1n1y1n1y1n1y1n1y1n1y1n1y1n1y1n1y1n1y1n1y1n1y1n1y1n1y1n1y1n1y1n1y1n",
  "1y1n1y1n1y7n2y1n2y2n1y1n4y1n1y1n1y1n1y1n1y289n1y1n1y3n1y8n1y6n1y1n3y1n1y1n2y1n17y1n9y35n1y",
  "8n1y1n1y1n1y1n1y1n1y1n1y1n1y1n1y1n1y1n1y1n1y1n1y5n1y2n1y1n2y2n51y48n1y1n1y1n1y1n1y1n1y1n1y",
  "1n1y1n1y1n1y1n1y1n1y1n1y1n1y1n1y1n1y1n1y1n1y9n1y1n1y1n1y1n1y1n1y1n1y1n1y1n1y1n1y1n1y1n1y1n",
  "1y1n1y1n1y1n1y1n1y1n1y1n1y1n1y1n1y1n1y1n1y1n1y1n1y1n1y1n1y1n1y1n2y1n1y1n1y1n1y1n1y1n1y1n1y",
  "2n1y1n1y1n1y1n1y1n1y1n1y1n1y1n1y1n1y1n1y1n1y1n1y1n1y1n1y1n1y1n1y1n1y1n1y1n1y1n1y1n1y1n1y1n",
  "1y1n1y1n1y1n1y1n1y1n1y1n1y1n1y1n1y1n1y1n1y1n1y1n1y1n1y1n1y1n1y1n1y1n1y1n1y1n1y1n1y1n1y1n1y",
  "1n1y1n1y1n1y2n38y2889n38y1n1y5n1y722n86y2202n43y2n3y320n1y1n1y1n1y1n1y1n1y1n1y1n1y1n1y1n1y",
  "1n1y1n1y1n1y1n1y1n1y1n1y1n1y1n1y1n1y1n1y1n1y1n1y1n1y1n1y1n1y1n1y1n1y1n1y1n1y1n1y1n1y1n1y1n",
  "1y1n1y1n1y1n1y1n1y1n1y1n1y1n1y1n1y1n1y1n1y1n1y1n1y1n1y1n1y1n1y1n1y1n1y1n1y1n1y1n1y1n1y1n1y",
  "1n1y1n1y1n1y1n1y1n1y1n1y1n1y1n1y1n1y1n1y1n1y1n1y1n1y1n1y1n1y1n1y1n1y1n1y1n1y1n1y1n1y9n1y1n",
  "1y1n1y1n1y1n1y1n1y1n1y1n1y1n1y1n1y1n1y1n1y1n1y1n1y1n1y1n1y1n1y1n1y1n1y1n1y1n1y1n1y1n1y1n1y",
  "1n1y1n1y1n1y1n1y1n1y1n1y1n1y1n1y1n1y1n1y1n1y1n1y1n1y1n1y1n1y1n1y1n1y1n1y1n1y1n1y1n1y1n1y1n",
  "1y1n1y1n1y9n8y8n6y10n8y8n8y8n6y11n1y1n1y1n1y1n1y8n8y24n8y8n8y8n8y8n5y11n5y11n4y12n5y11n5y",
  "297n1y3n2y6n1y45n16y19n1y818n26y1840n48y48n1y1n3y2n1y1n1y1n1y1n4y1n1y2n1y8n3y1n1y1n1y1n1y1n",
  "1y1n1y1n1y1n1y1n1y1n1y1n1y1n1y1n1y1n1y1n1y1n1y1n1y1n1y1n1y1n1y1n1y1n1y1n1y1n1y1n1y1n1y1n1y",
  "1n1y1n1y1n1y1n1y1n1y1n1y1n1y1n1y1n1y1n1y1n1y1n1y1n1y1n1y1n1y1n1y1n1y1n1y1n1y1n1y1n1y1n1y1n",
  "1y8n1y1n1y4n1y31053n1y1n1y1n1y1n1y1n1y1n1y1n1y1n1y1n1y1n1y1n1y1n1y1n1y1n1y1n1y1n1y1n1y1n1y",
  "1n1y1n1y1n1y1n1y1n1y19n1y1n1y1n1y1n1y1n1y1n1y1n1y1n1y1n1y1n1y1n1y1n1y1n1y1n1y135n1y1n1y1n1y",
  "1n1y1n1y1n1y1n1y3n1y1n1y1n1y1n1y1n1y1n1y1n1y1n1y1n1y1n1y1n1y1n1y1n1y1n1y1n1y1n1y1n1y1n1y1n",
  "1y1n1y1n1y1n1y1n1y1n1y1n1y1n1y1n1y1n1y1n1y1n1y1n1y10n1y1n1y1n2y1n1y1n1y1n1y1n1y4n1y1n1y2n1y",
  "1n1y3n1y1n1y1n1y1n1y1n1y1n1y1n1y1n1y1n1y1n1y1n5y1n5y1n1y1n1y1n1y1n1y1n1y1n1y1n1y1n4y1n1y6n",
  "1y5n1y1n1y28n1y22315n26y1221n40y136n36y156n11y1n15y1n7y1n2y1770n51y3053n32y21888n32y31392n",
  "34y1n"]

def changesWhenTitlecasedRuns : Runs := .ofText [
  "97n26y58n1y41n24y1n8y1n1y1n1y1n1y1n1y1n1y1n1y1n1y1n1y1n1y1n1y1n1y1n1y1n1y1n1y1n1y1n1y1n1y1n",
  "1y1n1y1n1y1n1y1n1y1n1y1n1y1n1y1n1y1n1y1n1y2n1y1n1y1n1y1n1y1n1y1n1y1n1y1n2y1n1y1n1y1n1y1n1y",
  "1n1y1n1y1n1y1n1y1n1y1n1y1n1y1n1y1n1y1n1y1n1y1n1y1n1y1n1y1n1y1n1y1n1y1n1y1n1y2n1y1n1y1n3y2n",
  "1y1n1y2n1y3n1y5n1y2n1y3n2y3n1y2n1y1n1y1n1y2n1y4n1y2n1y3n1y1n1y2n1y3n1y1n1y4n1y1n2y1n2y1n1y",
  "1n1y1n1y1n1y1n1y1n1y1n1y1n1y1n2y1n1y1n1y1n1y1n1y1n1y1n1y1n1y1n1y1n3y1n1y1n1y3n1y1n1y1n1y1n",
  "1y1n1y1n1y1n1y1n1y1n1y1n1y1n1y1n1y1n1y1n1y1n1y1n1y1n1y1n1y1n1y1n1y3n1y1n1y1n1y1n1y1n1y1n1y",
  "1n1y1n1y1n1y8n1y2n2y1n1y4n1y1n1y1n1y1n1y1n6y1n2y1n1y1n2y3n2y1n1y1n2y1n5y2n1y1n2y2n1y7n1y2n",
  "1y1n2y3n6y5n1y10n2y166n1y43n1y1n1y3n1y3n3y18n1y27n35y1n2y3n3y1n1y1n1y1n1y1n1y1n1y1n1y1n1y1n",
  "1y1n1y1n1y1n1y1n5y1n1y2n1y2n1y52n48y1n1y1n1y1n1y1n1y1n1y1n1y1n1y1n1y1n1y1n1y1n1y1n1y1n1y1n",
  "1y1n1y1n1y1n1y9n1y1n1y1n1y1n1y1n1y1n1y1n1y1n1y1n1y1n1y1n1y1n1y1n1y1n1y1n1y1n1y1n1y1n1y1n1y",
  "1n1y1n1y1n1y1n1y1n1y1n1y1n1y1n1y2n1y1n1y1n1y1n1y1n1y1n1y1n2y1n1y1n1y1n1y1n1y1n1y1n1y1n1y1n",
  "1y1n1y1n1y1n1y1n1y1n1y1n1y1n1y1n1y1n1y1n1y1n1y1n1y1n1y1n1y1n1y1n1y1n1y1n1y1n1y1n1y1n1y1n1y",
  "1n1y1n1y1n1y1n1y1n1y1n1y1n1y1n1y1n1y1n1y1n1y1n1y1n1y1n1y1n1y1n1y1n1y1n1y49n39y3696n6y2178n",
  "9y240n1y3n1y16n1y114n1y1n1y1n1y1n1y1n1y1n1y1n1y1n1y1n1y1n1y1n1y1n1y1n1y1n1y1n1y1n1y1n1y1n1y",
  "1n1y1n1y1n1y1n1y1n1y1n1y1n1y1n1y1n1y1n1y1n1y1n1y1n1y1n1y1n1y1n1y1n1y1n1y1n1y1n1y1n1y1n1y1n",
  "1y1n1y1n1y1n1y1n1y1n1y1n1y1n1y1n1y1n1y1n1y1n1y1n1y1n1y1n1y1n1y1n1y1n1y1n1y1n1y1n1y1n1y1n1y",
  "1n1y1n1y1n1y1n1y1n1y1n1y1n1y1n1y1n1y1n1y1n1y1n7y5n1y1n1y1n1y1n1y1n1y1n1y1n1y1n1y1n1y1n1y1n",
  "1y1n1y1n1y1n1y1n1y1n1y1n1y1n1y1n1y1n1y1n1y1n1y1n1y1n1y1n1y1n1y1n1y1n1y1n1y1n1y1n1y1n1y1n1y",
  "1n1y1n1y1n1y1n1y1n1y1n1y1n1y1n1y1n1y1n1y1n1y1n1y1n1y1n1y1n9y8n6y10n8y8n8y8n6y10n8y8n8y8n14y",
  "2n8y8n8y8n8y8n5y1n2y6n1y3n3y1n2y8n4y2n2y8n8y10n3y1n2y342n1y33n16y4n1y843n26y1862n48y1n1y3n",
  "2y1n1y1n1y1n1y6n1y2n1y10n1y1n1y1n1y1n1y1n1y1n1y1n1y1n1y1n1y1n1y1n1y1n1y1n1y1n1y1n1y1n1y1n1y",
  "1n1y1n1y1n1y1n1y1n1y1n1y1n1y1n1y1n1y1n1y1n1y1n1y1n1y1n1y1n1y1n1y1n1y1n1y1n1y1n1y1n1y1n1y1n",
  "1y1n1y1n1y1n1y1n1y1n1y1n1y1n1y1n1y1n1y1n1y8n1y1n1y4n1y12n38y1n1y5n1y30995n1y1n1y1n1y1n1y1n",
  "1y1n1y1n1y1n1y1n1y1n1y1n1y1n1y1n1y1n1y1n1y1n1y1n1y1n1y1n1y1n1y1n1y1n1y1n1y19n1y1n1y1n1y1n1y",
  "1n1y1n1y1n1y1n1y1n1y1n1y1n1y1n1y1n1y1n1y135n1y1n1y1n1y1n1y1n1y1n1y1n1y3n1y1n1y1n1y1n1y1n1y",
  "1n1y1n1y1n1y1n1y1n1y1n1y1n1y1n1y1n1y1n1y1n1y1n1y1n1y1n1y1n1y1n1y1n1y1n1y1n1y1n1y1n1y1n1y1n",
  "1y1n1y1n1y1n1y10n1y1n1y2n1y1n1y1n1y1n1y1n1y4n1y4n1y1n2y2n1y1n1y1n1y1n1y1n1y1n1y1n1y1n1y1n1y",
  "1n1y11n1y1n1y1n1y1n1y1n1y1n1y1n1y1n1y4n1y1n1y6n1y5n1y1n1y28n1y860n1y28n80y20288n7y12n5y",
  "1065n26y1229n40y136n36y155n11y1n15y1n7y1n2y1795n51y3021n32y21888n32y31394n34y1n"]

def changesWhenUppercasedRuns : Runs := .ofText [
  "97n26y58n1y41n24y1n8y1n1y1n1y1n1y1n1y1n1y1n1y1n1y1n1y1n1y1n1y1n1y1n1y1n1y1n1y1n1y1n1y1n1y1n",
  "1y1n1y1n1y1n1y1n1y1n1y1n1y1n1y1n1y1n1y1n1y2n1y1n1y1n1y1n1y1n1y1n1y1n1y1n2y1n1y1n1y1n1y1n1y",
  "1n1y1n1y1n1y1n1y1n1y1n1y1n1y1n1y1n1y1n1y1n1y1n1y1n1y1n1y1n1y1n1y1n1y1n1y1n1y2n1y1n1y1n3y2n",
  "1y1n1y2n1y3n1y5n1y2n1y3n2y3n1y2n1y1n1y1n1y2n1y4n1y2n1y3n1y1n1y2n1y3n1y1n1y5n2y1n2y1n2y1n1y",
  "1n1y1n1y1n1y1n1y1n1y1n1y1n2y1n1y1n1y1n1y1n1y1n1y1n1y1n1y1n1y1n2y1n2y1n1y3n1y1n1y1n1y1n1y1n",
  "1y1n1y1n1y1n1y1n1y1n1y1n1y1n1y1n1y1n1y1n1y1n1y1n1y1n1y1n1y1n1y3n1y1n1y1n1y1n1y1n1y1n1y1n1y",
  "1n1y1n1y8n1y2n2y1n1y4n1y1n1y1n1y1n1y1n6y1n2y1n1y1n2y3n2y1n1y1n2y1n5y2n1y1n2y2n1y7n1y2n1y1n",
  "2y3n6y5n1y10n2y166n1y43n1y1n1y3n1y3n3y18n1y27n35y1n2y3n3y1n1y1n1y1n1y1n1y1n1y1n1y1n1y1n1y1n",
  "1y1n1y1n1y1n5y1n1y2n1y2n1y52n48y1n1y1n1y1n1y1n1y1n1y1n1y1n1y1n1y1n1y1n1y1n1y1n1y1n1y1n1y1n",
  "1y1n1y1n1y9n1y1n1y1n1y1n1y1n1y1n1y1n1y1n1y1n1y1n1y1n1y1n1y1n1y1n1y1n1y1n1y1n1y1n1y1n1y1n1y",
  "1n1y1n1y1n1y1n1y1n1y1n1y1n1y2n1y1n1y1n1y1n1y1n1y1n1y1n2y1n1y1n1y1n1y1n1y1n1y1n1y1n1y1n1y1n",
  "1y1n1y1n1y1n1y1n1y1n1y1n1y1n1y1n1y1n1y1n1y1n1y1n1y1n1y1n1y1n1y1n1y1n1y1n1y1n1y1n1y1n1y1n1y",
  "1n1y1n1y1n1y1n1y1n1y1n1y1n1y1n1y1n1y1n1y1n1y1n1y1n1y1n1y1n1y1n1y1n1y49n39y2888n43y2n3y760n",
  "6y2178n9y240n1y3n1y16n1y114n1y1n1y1n1y1n1y1n1y1n1y1n1y1n1y1n1y1n1y1n1y1n1y1n1y1n1y1n1y1n1y",
  "1n1y1n1y1n1y1n1y1n1y1n1y1n1y1n1y1n1y1n1y1n1y1n1y1n1y1n1y1n1y1n1y1n1y1n1y1n1y1n1y1n1y1n1y1n",
  "1y1n1y1n1y1n1y1n1y1n1y1n1y1n1y1n1y1n1y1n1y1n1y1n1y1n1y1n1y1n1y1n1y1n1y1n1y1n1y1n1y1n1y1n1y",
  "1n1y1n1y1n1y1n1y1n1y1n1y1n1y1n1y1n1y1n1y1n1y1n1y1n1y1n7y5n1y1n1y1n1y1n1y1n1y1n1y1n1y1n1y1n",
  "1y1n1y1n1y1n1y1n1y1n1y1n1y1n1y1n1y1n1y1n1y1n1y1n1y1n1y1n1y1n1y1n1y1n1y1n1y1n1y1n1y1n1y1n1y",
  "1n1y1n1y1n1y1n1y1n1y1n1y1n1y1n1y1n1y1n1y1n1y1n1y1n1y1n1y1n1y1n1y1n9y8n6y10n8y8n8y8n6y10n8y",
  "8n8y8n14y2n53y1n2y4n1y1n1y3n3y1n2y4n1y3n4y2n2y8n8y10n3y1n2y4n1y337n1y33n16y4n1y843n26y1862n",
  "48y1n1y3n2y1n1y1n1y1n1y6n1y2n1y10n1y1n1y1n1y1n1y1n1y1n1y1n1y1n1y1n1y1n1y1n1y1n1y1n1y1n1y1n",
  "1y1n1y1n1y1n1y1n1y1n1y1n1y1n1y1n1y1n1y1n1y1n1y1n1y1n1y1n1y1n1y1n1y1n1y1n1y1n1y1n1y1n1y1n1y",
  "1n1y1n1y1n1y1n1y1n1y1n1y1n1y1n1y1n1y1n1y1n1y1n1y1n1y8n1y1n1y4n1y12n38y1n1y5n1y30995n1y1n1y",
  "1n1y1n1y1n1y1n1y1n1y1n1y1n1y1n1y1n1y1n1y1n1y1n1y1n1y1n1y1n1y1n1y1n1y1n1y1n1y1n1y1n1y19n1y1n",
  "1y1n1y1n1y1n1y1n1y1n1y1n1y1n1y1n1y1n1y1n1y1n1y1n1y135n1y1n1y1n1y1n1y1n1y1n1y1n1y3n1y1n1y1n",
  "1y1n1y1n1y1n1y1n1y1n1y1n1y1n1y1n1y1n1y1n1y1n1y1n1y1n1y1n1y1n1y1n1y1n1y1n1y1n1y1n1y1n1y1n1y",
  "1n1y1n1y1n1y1n1y1n1y1n1y10n1y1n1y2n1y1n1y1n1y1n1y1n1y4n1y4n1y1n2y2n1y1n1y1n1y1n1y1n1y1n1y1n",
  "1y1n1y1n1y1n1y11n1y1n1y1n1y1n1y1n1y1n1y1n1y1n1y4n1y1n1y6n1y5n1y1n1y28n1y860n1y28n80y20288n",
  "7y12n5y1065n26y1229n40y136n36y155n11y1n15y1n7y1n2y1795n51y3021n32y21888n32y31394n34y1n"]

def dashRuns : Runs := .ofText [
  "45n1y1372n1y51n1y3649n1y1029n1y2057n6y61n1y39n1y15n1y390n1y3076n1y2n1y31n2y4n1y28n1y446n1y",
  "19n1y111n1y52624n2y37n1y10n1y169n1y3999n1y1n"]

def defaultIgnorableCodePointRuns : Runs := .ofText [
  "173n1y673n1y716n1y2882n2y1619n2y85n5y2043n5y26n5y49n16y4340n1y52379n16y239n1y160n1y79n9y",
  "48295n4y5327n8y798341n4096y1n"]

def deprecatedRuns : Runs := .ofText [
  "329n1y1321n1y2307n1y1n1y2089n2y2245n6y697n2y908502n1y1n"]

def diacriticRuns : Runs := .ofText [
  "94n1y1n1y71n1y6n1y4n1y2n2y503n159y1n8y5n6y17n2y4n1y9n2y253n5y209n1y55n17y1n27y1n1y1n2y1n1y",
  "134n8y4n2y134n2y4n2y3n3y67n27y91n11y58n11y34n2y126n8y41n10y16n28y61n1y16n1y3n4y28n1y74n1y",
  "16n1y110n1y16n1y110n1y16n1y47n3y60n1y16n1y7n1y119n1y110n1y16n1y110n1y16n1y109n2y16n1y124n1y",
  "124n6y1n1y107n1y13n5y75n2y27n1y1n1y1n1y4n2y66n3y1n2y62n1y112n1y1n2y40n2y4n5y25n7y1n1y10n2y",
  "705n3y948n2y179n11y9n1y347n3y313n8y2n1y48n15y2n11y104n1y15n1y38n9y54n2y138n2y64n6y82n25y4n",
  "1y6n1y2n3y50n63y89n12y37n11y445n1y1n3y11n3y13n3y13n3y13n2y3312n3y317n1y506n6y105n4y95n1y",
  "30066n1y12n2y1n1y28n2y82n2y14n34y102n3y109n2y202n1y27n18y57n4y36n1y95n1y12n1y36n1y149n3y65n",
  "4y51n1y100n5y9n3y128n2y20272n1y769n16y270n1y1n1y47n1y45n2y67n1y764n1y1183n6y1n42y1n9y810n2y",
  "571n6y469n3y70n11y49n4y192n1y41n1y72n2y120n2y62n1y76n1y9n3y104n2y178n2y81n1y16n1y24n7y3n5y",
  "205n1y3n1y123n2y251n2y126n1y118n2y115n1y269n2y258n2y4n1y156n1y83n1y18n1y81n1y421n1y258n1y1n",
  "2y81n1y5807n15y13978n5y59n7y1112n17y80n2y16382n4y1n7y1n2y7937n46y2n23y544n3y3n6y8n8y2n7y30n",
  "4y3714n62y194n7y375n1y61n4y1504n7y109n3y1n3y1n"]

def emojiRuns : Runs := .ofText [
  "35n1y6n1y5n10y111n1y4n1y8077n1y12n1y216n1y22n1y90n6y15n2y367n2y12n1y166n1y25n11y4n3y199n1y",
  "231n2y10n1y9n1y58n4y1n5y9n1y2n1y2n2y2n1y4n1y2n1y1n2y2n1y3n1y3n2y8n3y5n1y1n1y5n12y11n2y2n1y",
  "1n2y1n1y18n1y2n2y18n6y1n1y1n2y3n2y5n1y2n2y4n2y11n2y5n2y2n1y5n2y1n1y1n2y20n2y5n6y1n4y2n1y4n",
  "1y2n1y2n6y1n1y2n1y1n1y1n1y6n1y3n1y6n1y10n2y15n1y2n1y4n1y1n1y4n3y1n1y11n2y48n3y9n1y14n1y14n",
  "1y372n2y463n3y19n2y51n1y4n1y1242n1y12n1y601n1y1n1y114026n1y202n1y160n2y12n2y14n1y2n10y75n",
  "26y1n2y23n1y20n1y2n9y21n2y174n34y2n112y2n2y1n3y2n83y2n3y1n263y1n63y11n6y1n24y7n2y2n8y12n1y",
  "2n4y2n1y4n2y13n2y2n1y8n2y9n1y5n3y12n3y8n3y2n1y1n1y4n1y6n1y3n1y6n86y48n70y5n8y2n3y4n10y3n1y",
  "1n2y3n1y2n10y227n12y4n1y283n47y1n10y1n185y112n13y3n9y7n46y1n7y8n14y4n9y7n9y1n"]

def emojiComponentRuns : Runs := .ofText [
  "35n1y6n1y5n10y8147n1y213n1y56619n1y62422n26y507n5y1456n4y788076n96y1n"]

def emojiModifierRuns : Runs := .ofText [
  "127995n5y1n"]

def emojiModifierBaseRuns : Runs := .ofText [
  "9757n1y219n1y16n4y117879n1y60n3y2n1y2n3y117n2y2n11y21n19y3n1y4n3y1n3y7n1y1n1y24n1y201n2y4n",
  "1y21n1y4n2y174n3y3n5y83n1y16n3y9n1y11n1y575n1y2n1y8n8y6n1y9n10y2n3y56n1y61n2y1n2y1n1y17n3y",
  "1n13y229n3y42n9y1n"]

def emojiPresentationRuns : Runs := .ofText [
  "8986n2y205n4y3n1y2n1y521n2y21n2y50n12y43n1y19n1y13n1y8n2y17n2y5n2y8n1y5n1y21n1y7n2y1n1y4n1y",
  "2n1y7n1y4n2y28n1y35n1y1n1y4n3y1n1y61n3y24n1y14n1y859n2y51n1y4n1y115886n1y202n1y190n1y2n10y",
  "75n26y1n1y24n1y20n1y2n5y1n3y21n2y174n33y12n9y1n70y1n22y12n43y4n5y12n17y3n1y3n71y1n1y1n187y",
  "2n63y13n4y1n24y18n1y26n2y13n1y86n85y48n70y6n1y3n3y2n3y4n4y11n2y7n9y227n12y4n1y283n47y1n10y",
  "1n185y112n13y3n9y7n46y1n7y8n14y4n9y7n9y1n"]

def extendedPictographicRuns : Runs := .ofText [
  "169n1y4n1y8077n1y12n1y216n1y22n1y90n6y15n2y367n2y12n1y95n1y70n1y25n11y4n3y199n1y231n2y10n1y",
  "9n1y58n4y1n6y1n12y1n114y10n118y2n11y1n1y1n1y6n1y3n1y6n1y10n2y15n1y2n1y4n1y1n1y4n3y1n1y11n5y",
  "45n3y9n1y14n1y14n1y372n2y463n3y19n2y51n1y4n1y1242n1y12n1y601n1y1n1y114022n256y13n3y31n1y60n",
  "6y12n2y14n1y2n10y18n57y27n15y10n1y20n1y2n9y1n4y9n434y5n318y8n266y48n128y116n12y85n43y12n4y",
  "56n8y10n6y40n8y30n82y12n47y1n10y1n441y256n1022y1n"]

def extenderRuns : Runs := .ofText [
  "183n1y536n2y878n1y441n1y858n1y752n1y127n1y2371n1y56n1y611n1y398n1y68n1y5001n1y43n5y103n2y",
  "93n3y28438n1y1526n1y962n1y22n1y137n1y108n1y21n2y21627n1y2064n2y3034n1y616n3y1231n1y20649n2y",
  "1180n2y1n1y29016n2y2054n3y1n"]

def graphemeBaseRuns : Runs := .ofText [
  "32n95y33n13y1n594y112n8y2n6y4n7y1n1y1n20y1n224y7n166y1n38y2n50y2n3y46n1y1n1y2n1y2n1y9n27y4n",
  "6y17n10y11n1y1n46y21n16y1n101y8n1y6n2y2n1y4n32y2n1y1n30y29n89y11n1y14n43y9n7y3n24y4n1y9n1y",
  "3n1y7n15y1n25y5n1y1n11y5n31y17n42y57n55y1n1y1n4y8n4y1n3y7n10y2n29y1n2y1n8y2n2y2n22y1n7y1n1y",
  "3n4y3n1y1n2y6n2y2n2y1n1y13n2y1n3y4n24y5n1y1n6y4n2y2n22y1n7y1n2y1n2y1n2y4n3y24n4y1n1y7n10y2n",
  "3y1n1y12n1y1n9y1n3y1n22y1n7y1n2y1n5y3n4y8n1y1n2y3n1y15n2y4n12y7n1y8n2y1n8y2n2y2n22y1n7y1n2y",
  "1n5y3n1y2n1y6n2y2n2y15n2y1n3y4n18y11n1y1n6y3n3y1n4y3n2y1n1y1n2y3n2y3n3y3n12y5n1y1n2y3n3y1n",
  "3y3n1y21n21y6n3y1n8y1n3y1n23y1n16y3n1y3n4y19n3y2n1y2n2y4n10y7n10y1n11y1n3y1n23y1n10y1n5y3n",
  "2y1n2y1n2y2n2y1n2y17n2y1n2y4n10y1n3y14n11y1n3y1n41y2n1y1n2y5n3y1n3y1n2y4n3y1n10y4n26y2n2y1n",
  "18y3n24y1n9y1n1y2n7y9n2y6n7y7n10y2n3y12n48y1n2y11n8y8n13y37n2y1n1y1n5y1n24y1n1y1n10y1n2y9n",
  "1y2n5y1n1y9n10y2n4y32n24y2n27y1n1y1n1y1n14y1n36y18n1y5n1y2n5y49n8y1n6y1n13y37n45y4n1y6n1y2n",
  "2y2n25y2n4y3n16y4n13y1n2y2n6y1n15y1n40y1n1y5n1y2n377y1n4y2n7y1n1y1n4y2n41y1n4y2n33y1n4y2n7y",
  "1n1y1n4y2n15y1n57y1n4y2n67y5n29y3n26y6n86y2n6y2n669y3n89y7n18y3n1y9n19y2n3y9n18y14n13y1n3y",
  "15n52y2n1y7n8y1n2y11n9y3n10y6n10y6n11y5n10y6n89y7n5y2n34y1n1y5n70y10n31y4n4y2n3y4n2y1n6y7n",
  "1y3n42y2n5y11n44y4n26y6n11y3n57y2n2y3n56y1n1y9n1y1n2y8n6y13n10y6n10y6n14y86n48y7n1y1n5y1n",
  "10y3n27y9n11y3n32y4n2y2n1y3n56y1n1y2n3y1n1y3n2y8n48y8n2y5n15y3n60y7n43y2n11y11n1y13n1y7n4y",
  "1n6y1n3y2n1y5n192y64n278y2n6y2n38y2n6y2n8y1n1y1n1y1n1y1n31y2n53y1n15y1n14y2n6y1n19y2n3y1n9y",
  "1n11y5n24y7n49y16n2y2n27y1n13y3n33y63n140y4n663y25n11y21n1812y2n32y1n344y3n2y5n45y1n1y5n1y",
  "2n56y7n2y15n23y9n7y1n7y1n7y1n7y1n7y1n7y1n7y1n7y33n94y34n26y1n89y12n214y26n12y4n42y6n16y1n",
  "86y4n101y5n43y1n94y1n84y12n47y1n29293y3n55y9n348y20n47y4n1y10n32y2n80y2n6y8n203y5n2y1n1y1n",
  "5y24n16y1n3y1n4y1n25y2n5y4n10y6n56y8n68y10n12y24n13y1n38y8n25y11n2y11n30y6n48y1n2y4n2y2n16y",
  "1n11y4n7y1n25y1n41y6n2y2n2y11n3y1n8y1n1y2n10y2n32y1n51y1n1y3n2y2n5y2n1y1n1y24n17y2n8y11n6y",
  "2n6y2n6y9n7y1n7y1n60y4n117y1n2y1n4y3n10y6n11172y12n23y4n49y8452n366y2n106y38n7y12n5y5n1y1n",
  "24y1n5y1n1y1n2y1n2y1n125y16n445y2n54y7n1y32n16y16n10y22n35y1n19y1n4y4n5y1n135y4n157y2n31y3n",
  "6y2n6y2n6y2n3y3n7y1n7y13n2y2n12y1n26y1n19y1n2y1n15y2n14y34n123y5n3y4n45y3n88y1n13y3n1y47n",
  "45y131n29y3n49y16n27y4n36y9n30y5n38y10n30y1n37y4n14y42n158y2n10y6n36y4n36y4n40y8n52y11n12y",
  "1n15y1n7y1n2y1n11y1n15y1n7y1n2y67n311y9n22y10n8y24n6y1n42y1n9y69n6y2n1y1n44y1n2y3n1y2n23y1n",
  "72y8n9y48n19y1n2y5n33y3n27y5n1y64n56y4n20y2n47y15n4y1n3y1n29y10n9y7n9y7n64y32n37y6n12y9n54y",
  "3n29y2n27y5n26y7n4y12n7y80n73y55n51y13n51y7n42y12n10y294n31y1n42y3n1y2n2y78n40y8n22y11n9y",
  "22n18y4n4y38n28y20n23y9n1y1n54y15n7y4n30y1n2y2n1y12n49y4n2y2n2y1n4y14n25y7n10y9n36y5n1y9n",
  "18y8n35y1n3y11n52y9n10y4n2y1n16y1n20y11n18y1n28y3n2y1n1y2n6y1n2y63n7y1n1y1n4y1n15y1n11y6n",
  "47y1n3y13n10y8n2y1n8y2n2y2n22y1n7y1n2y1n5y3n1y1n1y1n4y2n2y2n3y2n1y12n7y156n56y8n2y3n1y1n21y",
  "1n1y1n3y30n48y1n2y6n1y1n2y1n1y2n1y2n4y8n10y166n47y1n2y6n4y2n1y2n27y36n51y8n2y1n1y2n4y11n10y",
  "6n13y19n43y1n1y1n2y6n1y1n2y6n10y54n27y5n2y4n1y9n23y185n47y9n1y2n1y100n83y12n8y2n1y2n8y1n2y",
  "1n24y1n5y1n2y4n1y1n4y1n3y9n10y70n8y2n42y8n4y1n4y27n1y10n40y6n2y4n8y9n1y6n2y3n46y13n1y2n9y",
  "13n73y7n10y246n9y1n38y14n1y1n6y10n29y3n32y25n1y7n1y2n1y75n7y1n2y1n38y21n1y9n10y6n6y1n2y1n",
  "37y4n2y1n1y1n1y7n10y310n19y2n4y9n15y1n36y8n2y1n1y1n23y86n1y15n50y13n923y102n111y1n5y11n196y",
  "2636n99y13n1072y17n6y4025n583y8633n569y7n31y1n10y4n81y1n10y6n30y7n1y10n48y7n15y10n10y1n7y1n",
  "21y5n19y688n91y101n75y5n56y11n13y64n4y12n2y14n6136y8n1238y42n9y8935n4y1n7y1n2y1n291y15n1y",
  "29n3y2n1y14n4y8n396y2308n107y5n13y3n9y7n10y2n1y2n1y4784n116y60n246y10n39y2n60y1n1y3n4y21n2y",
  "7n30y4n61y21n66y3n1y122n20y12n20y12n87y9n25y135n85y1n71y1n2y2n1y2n2y2n4y1n12y1n1y1n7y1n65y",
  "1n4y2n8y1n7y1n28y1n4y1n5y1n1y3n7y1n340y2n292y2n562y55n4y50n8y1n14y1n7y1140n31y6n6y261n62y",
  "146n45y10n7y2n10y4n2y320n30y18n44y4n10y5n1y464n28y4n10y742n7y1n4y1n2y1n15y1n197y2n9y48n68y",
  "7n1y4n10y4n2y785n68y76n61y194n4y1n27y1n2y1n1y2n1y1n10y1n4y1n1y1n1y6n1y4n1y1n1y1n1y1n3y1n2y",
  "1n1y2n1y1n1y1n1y1n1y1n1y1n2y1n1y2n4y1n7y1n4y1n4y1n1y1n10y1n17y5n3y1n5y1n17y52n2y270n44y4n",
  "100y12n15y2n15y1n15y1n37y10n174y56n29y13n44y4n9y7n2y14n6y154n984y4n17y3n13y3n119y4n95y6n12y",
  "4n1y15n12y4n56y8n10y6n40y8n30y2n2y78n340y12n14y2n13y3n9y7n46y1n7y8n14y4n9y7n9y7n147y1n55y",
  "37n10y1030n42720y32n4154y6n222y2n5762y14n7473y3103n542y1506n4939y5n4192y1n"]

def graphemeExtendRuns : Runs := .ofText [
  "768n112y275n7y263n45y1n1y1n2y1n2y1n1y72n11y48n21y16n1y101n7y2n6y2n2y1n4y35n1y30n27y91n11y",
  "58n9y9n1y24n4y1n9y1n3y1n5y43n3y60n8y42n24y1n32y55n1y1n1y4n8y4n1y3n7y10n2y29n1y58n1y1n1y2n4y",
  "8n1y9n1y10n2y26n1y2n2y57n1y4n2y4n2y2n3y3n1y30n2y3n1y11n2y57n1y4n5y1n2y4n1y20n2y22n6y1n1y58n",
  "1y1n2y1n4y8n1y7n3y10n2y30n1y59n1y1n1y12n1y9n1y40n1y3n1y55n1y1n3y5n3y1n4y7n2y11n2y29n1y58n1y",
  "2n1y2n1y3n1y5n2y7n2y11n2y28n2y57n2y1n1y2n4y8n1y9n1y10n2y29n1y72n1y4n1y2n3y1n1y8n1y81n1y2n7y",
  "12n8y98n1y2n9y11n7y73n2y27n1y1n1y1n1y55n14y1n5y1n2y5n11y1n36y9n1y102n4y1n6y1n2y2n2y25n2y4n",
  "3y16n4y13n1y2n2y6n1y15n1y703n3y946n3y29n2y30n2y30n2y64n2y1n7y8n1y2n11y9n1y45n3y1n1y117n2y",
  "34n1y118n3y4n2y9n1y6n3y219n2y2n1y58n1y1n7y1n1y1n1y2n8y6n10y2n1y48n31y49n4y48n7y1n1y5n1y40n",
  "9y12n2y32n4y2n2y1n3y56n1y1n2y3n1y1n3y58n8y2n2y152n3y1n13y1n7y4n1y6n1y3n2y198n64y524n1y195n",
  "33y3070n3y141n1y96n32y554n6y105n2y30164n4y1n10y32n2y80n2y272n1y3n1y4n1y25n2y5n1y151n2y26n",
  "18y13n1y38n8y25n11y46n3y48n1y2n4y2n2y39n1y67n6y2n2y2n2y12n1y8n1y47n1y51n1y1n3y2n2y5n2y1n1y",
  "42n2y8n1y238n1y2n1y4n1y20272n1y737n16y16n16y366n2y605n1y226n1y149n5y1670n3y1n2y5n4y40n3y4n",
  "1y165n2y573n4y387n2y80n3y70n11y49n4y123n1y54n15y41n1y2n2y10n3y49n4y2n2y7n1y61n3y36n5y1n8y",
  "62n1y12n2y52n9y10n4y2n1y95n3y2n1y1n2y6n1y2n1y157n1y3n8y21n2y57n2y1n1y1n1y22n1y14n7y3n5y195n",
  "8y2n3y1n1y23n1y81n1y2n6y1n1y2n1y1n2y1n2y235n1y2n4y6n2y1n2y27n2y85n8y2n1y1n2y106n1y1n1y2n6y",
  "1n1y101n3y2n4y1n5y259n9y1n2y245n1y10n2y1n1y4n1y144n4y2n2y4n1y32n10y40n6y2n4y8n1y9n6y2n3y46n",
  "13y1n2y406n7y1n6y1n1y82n22y2n7y1n2y1n2y122n6y3n1y1n2y1n7y1n1y72n2y3n1y1n1y347n2y11n2y52n5y",
  "5n1y1n1y5373n1y6n15y13978n5y59n7y1048n1y63n4y81n1y19640n2y4705n46y2n23y542n1y1n3y4n5y8n8y2n",
  "7y30n4y148n3y1979n55y4n50y8n1y14n1y22n5y1n15y1360n7y1n17y2n7y1n2y1n5y100n1y160n7y375n1y61n",
  "4y508n4y992n7y109n7y792277n96y128n240y1n"]

def hexDigitRuns : Runs := .ofText [
  "48n10y7n6y26n6y65193n10y7n6y26n6y1n"]

def idsBinaryOperatorRuns : Runs := .ofText [
  "12272n2y2n8y1n"]

def idsTrinaryOperatorRuns : Runs := .ofText [
  "12274n2y1n"]

def idContinueRuns : Runs := .ofText [
  "48n10y7n26y4n1y1n26y47n1y10n1y1n1y2n1y5n23y1n31y1n458y4n12y14n5y7n1y1n1y17n117y1n2y2n4y1n1y",
  "6n5y1n1y1n20y1n83y1n139y1n5y2n166y1n38y2n1y6n41y8n45y1n1y1n2y1n2y1n1y8n27y4n4y29n11y5n74y4n",
  "102y1n8y2n10y1n19y2n1y16n59y2n101y14n54y4n1y2n1y2n46y18n28y4n11y5n24y1n6y9n74y1n129y2n10y1n",
  "19y1n8y2n2y2n22y1n7y1n1y3n4y2n9y2n2y2n4y8n1y4n2y1n5y2n12y10n1y1n1y2n3y1n6y4n2y2n22y1n7y1n2y",
  "1n2y1n2y2n1y1n5y4n2y2n3y3n1y7n4y1n1y7n16y11n3y1n9y1n3y1n22y1n7y1n2y1n5y2n10y1n3y1n3y2n1y15n",
  "4y2n10y9n7y1n3y1n8y2n2y2n22y1n7y1n2y1n5y2n9y2n2y2n3y7n3y4n2y1n5y2n10y1n1y16n2y1n6y3n3y1n4y",
  "3n2y1n1y1n2y3n2y3n3y3n12y4n5y3n3y1n4y2n1y6n1y14n10y16n13y1n3y1n23y1n16y2n9y1n3y1n4y7n2y1n3y",
  "2n1y2n4y2n10y16n4y1n8y1n3y1n23y1n10y1n5y2n9y1n3y1n4y7n2y6n2y1n4y2n10y1n3y12n13y1n3y1n51y1n",
  "3y1n5y5n4y7n5y2n10y10n6y1n3y1n18y3n24y1n9y1n1y2n7y3n1y4n6y1n1y1n8y6n10y2n2y13n58y5n15y1n10y",
  "39n2y1n1y1n5y1n24y1n1y1n23y2n5y1n1y1n7y1n10y2n4y32n1y23n2y6n10y11n1y1n1y1n1y4n10y1n36y4n20y",
  "1n18y1n36y9n1y57n74y6n78y2n38y1n1y5n1y2n43y1n333y1n4y2n7y1n1y1n4y2n41y1n4y2n33y1n4y2n7y1n1y",
  "1n4y2n15y1n57y1n4y2n67y2n3y9n9y14n16y16n86y2n6y3n620y2n17y1n26y5n75y3n11y7n22y9n22y11n20y",
  "12n13y1n3y1n2y12n84y3n1y4n2y2n10y33n3y1n11y6n89y7n43y5n70y10n31y1n12y4n12y10n40y2n5y11n44y",
  "4n26y6n11y37n28y4n63y1n29y2n11y6n10y13n1y8n14y1n16y49n77y3n10y17n9y12n116y12n56y8n10y3n49y",
  "2n9y7n43y2n3y16n3y1n39y5n534y2n6y2n38y2n6y2n8y1n1y1n1y1n1y1n31y2n53y1n7y1n1y3n3y1n7y3n4y2n",
  "6y4n13y5n3y1n7y66n2y19n1y28n1y13n1y16n13y51n13y4n1y3n12y17n1y4n1y2n10y1n1y2n6y6n1y1n1y1n1y",
  "1n16y2n4y5n5y4n1y17n41y2679n229y6n9y12n38y1n1y5n1y2n56y7n1y15n24y9n7y1n7y1n7y1n7y1n7y1n7y1n",
  "7y1n7y1n32y517n3y25n15y1n5y2n5y4n86y2n7y1n90y1n4y5n43y1n94y17n32y48n16y512n6592y64n22157y",
  "67n46y2n269y3n28y20n48y4n10y1n115y37n9y2n103y2n64y5n2y1n1y1n5y24n54y4n1y19n52y12n70y10n10y",
  "6n24y3n1y1n49y2n36y12n29y3n65y14n11y6n31y1n55y9n14y2n10y6n23y3n73y24n3y2n16y2n5y10n6y2n6y2n",
  "6y9n7y1n7y1n43y1n14y6n123y1n2y2n10y6n11172y12n23y4n49y8452n366y2n106y38n7y12n5y5n12y1n13y1n",
  "5y1n1y1n2y1n2y1n108y33n363y18n64y2n54y40n12y4n16y16n16y3n2y24n3y32n5y1n135y19n10y7n26y4n1y",
  "1n26y11n89y3n6y2n6y2n6y2n3y35n12y1n26y1n19y1n2y1n15y2n14y34n123y69n53y136n1y130n29y3n49y15n",
  "1y31n32y13n30y5n43y5n30y2n36y4n8y1n5y42n158y2n10y6n36y4n36y4n40y8n52y12n11y1n15y1n7y1n2y1n",
  "11y1n15y1n7y1n2y67n311y9n22y10n8y24n6y1n42y1n9y69n6y2n1y1n44y1n2y3n1y2n23y10n23y9n31y65n19y",
  "1n2y10n22y10n26y70n56y6n2y64n4y1n2y5n8y1n3y1n29y2n3y4n1y32n29y3n29y35n8y1n30y25n54y10n22y",
  "10n19y13n18y110n73y55n51y13n51y13n40y8n10y326n42y1n2y3n2y75n32y10n1y8n33y31n22y42n21y27n23y",
  "9n71y31n16y9n60y7n1y13n25y7n10y6n53y1n10y4n4y8n36y2n1y9n69y4n4y1n13y1n1y35n18y1n37y6n4y62n",
  "7y1n1y1n4y1n15y1n10y7n59y5n10y6n4y1n8y2n2y2n22y1n7y1n2y1n5y1n10y2n2y2n3y2n1y6n1y5n7y2n7y3n",
  "5y139n75y5n10y4n4y30n70y1n1y8n10y166n54y2n9y23n6y34n65y3n1y11n10y38n57y7n10y54n27y2n15y4n",
  "10y6n7y185n59y101n74y21n8y2n1y2n8y1n2y1n30y1n2y2n9y12n10y70n8y2n46y2n8y1n2y27n63y8n1y8n74y",
  "3n1y18n73y263n9y1n45y1n9y15n10y24n30y2n22y1n14y73n7y1n2y1n44y3n1y1n2y1n9y8n10y6n6y1n2y1n37y",
  "1n2y1n6y7n10y310n23y9n17y1n41y3n5y13n10y86n1y79n922y102n111y17n196y2636n97y15n1072y16n22y",
  "4010n583y8633n569y7n31y1n10y6n79y1n10y6n30y2n5y11n55y9n4y12n10y9n21y5n19y688n64y128n75y4n",
  "57y7n17y64n2y1n2y11n2y14n6136y8n1238y42n9y8935n4y1n7y1n2y1n291y15n1y29n3y2n1y14n4y8n396y",
  "2308n107y5n13y3n9y7n10y3n2y4705n46y2n23y542n5y3n6y8n8y2n7y30n4y148n3y443n85y1n71y1n2y2n1y2n",
  "2y2n4y1n12y1n1y1n7y1n65y1n4y2n8y1n7y1n28y1n4y1n5y1n1y3n7y1n340y2n25y1n25y1n31y1n25y1n31y1n",
  "25y1n31y1n25y1n31y1n25y1n8y2n50y512n55y4n50y8n1y14n1y22n5y1n15y1104n31y6n6y213n7y1n17y2n7y",
  "1n2y1n5y5n62y33n1y112n45y3n14y2n10y4n1y321n31y17n58y470n42y742n7y1n4y1n2y1n15y1n197y11n7y",
  "41n76y4n10y1190n4y1n27y1n2y1n1y2n1y1n10y1n4y1n1y1n1y6n1y4n1y1n1y1n1y1n3y1n2y1n1y2n1y1n1y1n",
  "1y1n1y1n1y1n2y1n1y2n4y1n7y1n4y1n4y1n1y1n10y1n17y5n3y1n5y1n17y3380n10y1030n42720y32n4154y6n",
  "222y2n5762y14n7473y3103n542y1506n4939y5n4192y712016n240y1n"]

def idStartRuns : Runs := .ofText [
  "65n26y6n26y47n1y10n1y4n1y5n23y1n31y1n458y4n12y14n5y7n1y1n1y129n5y1n2y2n4y1n1y6n1y1n3y1n1y1n",
  "20y1n83y1n139y8n166y1n38y2n1y6n41y71n27y4n4y45n43y35n2y1n99y1n1y15n2y7n2y10n3y2n1y16n1y1n",
  "30y29n89y11n1y24n33y9n2y4n1y5n22y4n1y9n1y3n1y23n25y7n11y5n24y1n6y17n42y58n54y3n1y18n1y7n10y",
  "15n16y4n8y2n2y2n22y1n7y1n1y3n4y3n1y16n1y13n2y1n3y14n2y10n1y8n6y4n2y2n22y1n7y1n2y1n2y1n2y31n",
  "4y1n1y19n3y16n9y1n3y1n22y1n7y1n2y1n5y3n1y18n1y15n2y23n1y11n8y2n2y2n22y1n7y1n2y1n5y3n1y30n2y",
  "1n3y15n1y17n1y1n6y3n3y1n4y3n2y1n1y1n2y3n2y3n3y3n12y22n1y52n8y1n3y1n23y1n16y3n1y26n3y2n1y2n",
  "2y30n1y4n8y1n3y1n23y1n10y1n5y3n1y31n2y1n2y15n2y17n9y1n3y1n41y2n1y16n1y5n3y8n3y24n6y5n18y3n",
  "24y1n9y1n1y2n7y58n48y1n2y12n7y58n2y1n1y1n5y1n24y1n1y1n10y1n2y9n1y2n5y1n1y21n4y32n1y63n8y1n",
  "36y27n5y115n43y20n1y16n6y4n4y3n1y3n2y7n3y4n13y12n1y17n38y1n1y5n1y2n43y1n333y1n4y2n7y1n1y1n",
  "4y2n41y1n4y2n33y1n4y2n7y1n1y1n4y2n15y1n57y1n4y2n67y37n16y16n86y2n6y3n620y2n17y1n26y5n75y3n",
  "11y7n18y13n19y14n18y14n13y1n3y15n52y35n1y4n1y67n89y7n41y1n1y5n70y10n31y49n30y2n5y11n44y4n",
  "26y54n23y9n53y82n1y93n47y17n8y54n30y13n2y10n44y26n36y41n3y10n36y2n9y7n43y2n3y41n4y1n6y1n2y",
  "3n1y5n192y64n278y2n6y2n38y2n6y2n8y1n1y1n1y1n1y1n31y2n53y1n7y1n1y3n3y1n7y3n4y2n6y4n13y5n3y1n",
  "7y116n1y13n1y16n13y101n1y4n1y2n10y1n1y2n6y6n1y1n1y1n1y1n16y2n4y5n5y4n1y17n41y2679n229y6n4y",
  "3n2y12n38y1n1y5n1y2n56y7n1y16n23y9n7y1n7y1n7y1n7y1n7y1n7y1n7y1n7y550n3y25n9y7n5y2n5y4n86y4n",
  "5y1n90y1n4y5n43y1n94y17n32y48n16y512n6592y64n22157y67n46y2n269y3n16y10n2y20n47y16n31y2n80y",
  "39n9y2n103y2n64y5n2y1n1y1n5y24n16y1n3y1n4y1n23y29n52y14n50y62n6y3n1y1n2y11n28y10n23y25n29y",
  "7n47y28n1y16n5y1n10y10n5y1n41y23n3y1n8y20n23y3n1y3n50y1n1y3n2y2n5y2n1y1n1y24n3y2n11y7n3y12n",
  "6y2n6y2n6y9n7y1n7y1n43y1n14y6n115y29n11172y12n23y4n49y8452n366y2n106y38n7y12n5y5n1y1n10y1n",
  "13y1n5y1n1y1n2y1n2y1n108y33n363y18n64y2n54y40n12y116n5y1n135y36n26y6n26y11n89y3n6y2n6y2n6y",
  "2n3y35n12y1n26y1n19y1n2y1n15y2n14y34n123y69n53y267n29y3n49y47n32y13n30y5n38y10n30y2n36y4n8y",
  "1n5y42n158y18n36y4n36y4n40y8n52y12n11y1n15y1n7y1n2y1n11y1n15y1n7y1n2y67n311y9n22y10n8y24n6y",
  "1n42y1n9y69n6y2n1y1n44y1n2y3n1y2n23y10n23y9n31y65n19y1n2y10n22y10n26y70n56y6n2y64n1y15n4y1n",
  "3y1n29y42n29y3n29y35n8y1n28y27n54y10n22y10n19y13n18y110n73y55n51y13n51y13n36y348n42y6n2y78n",
  "29y10n1y8n22y42n18y46n21y27n23y12n53y57n2y2n1y13n45y32n25y26n36y29n1y2n1y8n35y3n1y12n48y14n",
  "4y21n1y1n1y35n18y1n25y19n2y63n7y1n1y1n4y1n15y1n10y7n47y38n8y2n2y2n22y1n7y1n2y1n5y3n1y18n1y",
  "12n5y158n53y18n4y20n3y30n48y20n2y1n1y184n47y41n4y36n48y20n1y59n43y13n1y71n27y37n7y185n44y",
  "116n64y31n8y2n1y2n8y1n2y1n24y15n1y1n1y94n8y2n39y16n1y1n1y28n1y10n40y7n1y21n1y11n46y19n1y18n",
  "73y263n9y1n37y17n1y49n30y112n7y1n2y1n38y21n1y25n6y1n2y1n32y14n1y327n19y15n1y1n13y1n34y124n",
  "1y79n922y102n111y17n196y2636n97y15n1072y17n6y4025n583y8633n569y7n31y17n79y17n30y18n48y16n4y",
  "31n21y5n19y688n64y128n75y5n1y66n13y64n2y1n1y28n6136y8n1238y42n9y8935n4y1n7y1n2y1n291y15n1y",
  "29n3y2n1y14n4y8n396y2308n107y5n13y3n9y7n10y5990n85y1n71y1n2y2n1y2n2y2n4y1n12y1n1y1n7y1n65y",
  "1n4y2n8y1n7y1n28y1n4y1n5y1n1y3n7y1n340y2n25y1n25y1n31y1n25y1n31y1n25y1n31y1n25y1n31y1n25y1n",
  "8y1844n31y6n6y261n62y146n45y10n7y16n1y321n30y18n44y484n28y756n7y1n4y1n2y1n15y1n197y59n68y7n",
  "1y1204n4y1n27y1n2y1n1y2n1y1n10y1n4y1n1y1n1y6n1y4n1y1n1y1n1y1n3y1n2y1n1y2n1y1n1y1n1y1n1y1n1y",
  "1n2y1n1y2n4y1n7y1n4y1n4y1n1y1n10y1n17y5n3y1n5y1n17y4420n42720y32n4154y6n222y2n5762y14n7473y",
  "3103n542y1506n4939y5n4192y1n"]

def ideographicRuns : Runs := .ofText [
  "12294n2y25n9y14n3y965n6592y64n20992y22784n366y2n106y29962n1y27n6136y8n1238y42n9y9319n396y",
  "19716n42720y32n4154y6n222y2n5762y14n7473y3103n542y1506n4939y5n4192y1n"]

def joinControlRuns : Runs := .ofText [
  "8204n2y1n"]

def logicalOrderExceptionRuns : Runs := .ofText [
  "3648n5y123n5y2800n3y2n1y37114n2y2n1y1n2y1n"]

def lowercaseRuns : Runs := .ofText [
  "97n26y47n1y10n1y4n1y36n24y1n8y1n1y1n1y1n1y1n1y1n1y1n1y1n1y1n1y1n1y1n1y1n1y1n1y1n1y1n1y1n1y",
  "1n1y1n1y1n1y1n1y1n1y1n1y1n1y1n1y1n1y1n1y1n1y1n1y1n2y1n1y1n1y1n1y1n1y1n1y1n1y1n1y1n2y1n1y1n",
  "1y1n1y1n1y1n1y1n1y1n1y1n1y1n1y1n1y1n1y1n1y1n1y1n1y1n1y1n1y1n1y1n1y1n1y1n1y1n1y1n1y1n1y2n1y",
  "1n1y1n3y2n1y1n1y2n1y3n2y4n1y2n1y3n3y2n1y2n1y1n1y1n1y2n1y1n2y1n1y2n1y3n1y1n1y2n2y2n3y6n1y2n",
  "1y2n1y1n1y1n1y1n1y1n1y1n1y1n1y1n1y1n2y1n1y1n1y1n1y1n1y1n1y1n1y1n1y1n1y1n2y2n1y1n1y3n1y1n1y",
  "1n1y1n1y1n1y1n1y1n1y1n1y1n1y1n1y1n1y1n1y1n1y1n1y1n1y1n1y1n1y1n1y1n1y1n1y1n1y1n1y1n1y1n1y1n",
  "1y1n1y1n1y1n1y1n1y1n7y2n1y2n2y1n1y4n1y1n1y1n1y1n1y1n69y1n36y7n2y30n5y96n1y43n1y1n1y3n1y2n4y",
  "18n1y27n35y1n2y3n3y1n1y1n1y1n1y1n1y1n1y1n1y1n1y1n1y1n1y1n1y1n1y1n5y1n1y2n1y2n2y51n48y1n1y1n",
  "1y1n1y1n1y1n1y1n1y1n1y1n1y1n1y1n1y1n1y1n1y1n1y1n1y1n1y1n1y1n1y9n1y1n1y1n1y1n1y1n1y1n1y1n1y",
  "1n1y1n1y1n1y1n1y1n1y1n1y1n1y1n1y1n1y1n1y1n1y1n1y1n1y1n1y1n1y1n1y1n1y1n1y1n1y1n1y2n1y1n1y1n",
  "1y1n1y1n1y1n1y1n2y1n1y1n1y1n1y1n1y1n1y1n1y1n1y1n1y1n1y1n1y1n1y1n1y1n1y1n1y1n1y1n1y1n1y1n1y",
  "1n1y1n1y1n1y1n1y1n1y1n1y1n1y1n1y1n1y1n1y1n1y1n1y1n1y1n1y1n1y1n1y1n1y1n1y1n1y1n1y1n1y1n1y1n",
  "1y1n1y1n1y1n1y1n1y1n1y1n1y1n1y48n41y2887n43y1n4y760n6y2178n9y119n192y65n1y1n1y1n1y1n1y1n1y",
  "1n1y1n1y1n1y1n1y1n1y1n1y1n1y1n1y1n1y1n1y1n1y1n1y1n1y1n1y1n1y1n1y1n1y1n1y1n1y1n1y1n1y1n1y1n",
  "1y1n1y1n1y1n1y1n1y1n1y1n1y1n1y1n1y1n1y1n1y1n1y1n1y1n1y1n1y1n1y1n1y1n1y1n1y1n1y1n1y1n1y1n1y",
  "1n1y1n1y1n1y1n1y1n1y1n1y1n1y1n1y1n1y1n1y1n1y1n1y1n1y1n1y1n1y1n1y1n1y1n1y1n1y1n1y1n1y1n1y1n",
  "1y1n1y1n9y1n1y1n1y1n1y1n1y1n1y1n1y1n1y1n1y1n1y1n1y1n1y1n1y1n1y1n1y1n1y1n1y1n1y1n1y1n1y1n1y",
  "1n1y1n1y1n1y1n1y1n1y1n1y1n1y1n1y1n1y1n1y1n1y1n1y1n1y1n1y1n1y1n1y1n1y1n1y1n1y1n1y1n1y1n1y1n",
  "1y1n1y1n1y1n1y1n1y1n1y1n9y8n6y10n8y8n8y8n6y10n8y8n8y8n14y2n8y8n8y8n8y8n5y1n2y6n1y3n3y1n2y8n",
  "4y2n2y8n8y10n3y1n2y121n1y13n1y16n13y109n1y3n2y3n1y27n1y4n1y4n1y2n2y8n4y4n1y33n16y4n1y843n",
  "26y1862n48y1n1y3n2y1n1y1n1y1n1y4n1y1n2y1n8y3n1y1n1y1n1y1n1y1n1y1n1y1n1y1n1y1n1y1n1y1n1y1n1y",
  "1n1y1n1y1n1y1n1y1n1y1n1y1n1y1n1y1n1y1n1y1n1y1n1y1n1y1n1y1n1y1n1y1n1y1n1y1n1y1n1y1n1y1n1y1n",
  "1y1n1y1n1y1n1y1n1y1n1y1n1y1n1y1n1y1n1y1n1y1n1y1n1y1n1y1n1y1n2y7n1y1n1y4n1y12n38y1n1y5n1y",
  "30995n1y1n1y1n1y1n1y1n1y1n1y1n1y1n1y1n1y1n1y1n1y1n1y1n1y1n1y1n1y1n1y1n1y1n1y1n1y1n1y1n1y1n",
  "1y1n1y19n1y1n1y1n1y1n1y1n1y1n1y1n1y1n1y1n1y1n1y1n1y1n1y1n1y1n3y133n1y1n1y1n1y1n1y1n1y1n1y1n",
  "3y1n1y1n1y1n1y1n1y1n1y1n1y1n1y1n1y1n1y1n1y1n1y1n1y1n1y1n1y1n1y1n1y1n1y1n1y1n1y1n1y1n1y1n1y",
  "1n1y1n1y1n1y1n1y1n1y1n1y1n1y1n1y1n10y1n1y1n1y2n1y1n1y1n1y1n1y1n1y4n1y1n1y2n1y1n3y1n1y1n1y1n",
  "1y1n1y1n1y1n1y1n1y1n1y1n1y1n1y5n1y5n1y1n1y1n1y1n1y1n1y1n1y1n1y1n1y4n1y1n1y6n1y1n1y1n1y1n1y",
  "1n1y24n3y1n1y1n3y821n43y1n14y6n80y20288n7y12n5y1065n26y1229n40y136n36y155n11y1n15y1n7y1n2y",
  "451n1y2n3y1n42y1n9y1285n51y3021n32y21888n32y26010n26y26n7y1n18y26n26y26n4y1n1y1n7y1n11y26n",
  "26y26n26y26n26y26n26y26n26y26n26y26n26y26n26y26n28y28n25y1n6y26n25y1n6y26n25y1n6y26n25y1n6y",
  "26n25y1n6y1n1y1844n10y1n20y6n6y261n62y2228n34y1n"]

def mathRuns : Runs := .ofText [
  "43n1y16n3y31n1y29n1y1n1y45n1y4n1y37n1y31n1y728n3y2n1y26n2y2n3y527n3y6669n1y27n3y11n1y3n1y",
  "13n1y14n4y21n5y11n5y65n13y4n1y3n2y4n5y18n1y4n1y2n10y1n1y2n6y6n1y3n2y2n2y1n3y1n6y3n14y1n1y",
  "68n24y1n6y1n2y4n2y4n32y1n1y6n2y14n268y8n4y20n2y90n1y30n27y1n1y24n1y11n7y445n2y12n10y4n6y4n",
  "2y2n2y3n5y14n1y1n1y2n6y11n8y5n2y57n1y1n1y29n4y9n3y336n64y256n512y48n21y2n6y53212n1y823n6y1n",
  "1y162n1y16n3y29n1y1n1y29n1y1n1y131n1y6n4y54291n85y1n71y1n2y2n1y2n2y2n4y1n12y1n1y1n7y1n65y1n",
  "4y2n8y1n7y1n28y1n4y1n5y1n1y3n7y1n340y2n292y2n50y5632n4y1n27y1n2y1n1y2n1y1n10y1n4y1n1y1n1y6n",
  "1y4n1y1n1y1n1y1n3y1n2y1n1y2n1y1n1y1n1y1n1y1n1y1n2y1n1y2n4y1n7y1n4y1n4y1n1y1n10y1n17y5n3y1n",
  "5y1n17y52n2y1n"]

def noncharacterCodePointRuns : Runs := .ofText [
  "64976n32y526n2y65534n2y65534n2y65534n2y65534n2y65534n2y65534n2y65534n2y65534n2y65534n2y",
  "65534n2y65534n2y65534n2y65534n2y65534n2y65534n2y65534n2y1n"]

def patternSyntaxRuns : Runs := .ofText [
  "33n15y10n7y26n4y1n1y26n4y34n7y1n1y1n2y1n1y1n2y4n1y4n1y3n1y23n1y31n1y7960n24y8n15y2n19y1n10y",
  "305n720y160n630y30n1132y512n128y385n3y4n25y15n1y52493n2y261n2y1n"]

def patternWhiteSpaceRuns : Runs := .ofText [
  "9n5y18n1y100n1y8072n2y24n2y1n"]

def prependedConcatenationMarkRuns : Runs := .ofText [
  "1536n6y215n1y49n1y384n2y80n1y67546n1y15n1y1n"]

def quotationMarkRuns : Runs := .ofText [
  "34n1y4n1y131n1y15n1y8028n8y25n2y3591n1y457n4y13n3y52769n4y189n1y4n1y90n2y1n"]

def radicalRuns : Runs := .ofText [
  "11904n26y1n89y12n214y1n"]

def regionalIndicatorRuns : Runs := .ofText [
  "127462n26y1n"]

def sentenceTerminalRuns : Runs := .ofText [
  "33n1y12n1y16n1y1353n1y147n3y180n1y43n3y246n1y61n1y1n1y3n2y293n2y1764n2y790n1y4n2y773n1y198n",
  "2y204n1y5n1y314n2y354n4y174n2y2n2y29n2y188n2y65n2y956n2y9n3y3556n1y13n1y22n2y429n1y29948n1y",
  "270n2y227n1y3n1y382n2y86n2y95n1y152n2y147n3y144n2y249n1y21094n1y3n2y169n1y12n1y16n1y65n1y",
  "2804n2y1277n5y44n4y189n2y117n4y127n3y129n2y6n1y16n2y88n2y1n2y108n1y417n2y373n2y5n15y105n2y",
  "249n3y517n1y1n1y251n2y87n2y420n2y692n2y74n2y19241n2y133n1y65n2y11n1y851n1y19974n1y7656n1y1n"]

def softDottedRuns : Runs := .ofText [
  "105n2y196n1y281n1y30n1y52n1y20n1y320n1y98n1y1n1y6409n1y51n1y13n1y3n1y132n1y157n1y421n1y214n",
  "2y2866n1y108453n2y50n2y50n2y50n2y50n2y50n2y50n2y50n2y50n2y50n2y50n2y50n2y50n2y2182n1y305n2y",
  "26n1y1n"]

def terminalPunctuationRuns : Runs := .ofText [
  "33n1y10n1y1n1y11n2y3n1y830n1y8n1y513n1y57n1y72n1y14n1y1n3y180n1y43n11y1n1y235n2y54n15y31n1y",
  "261n2y1268n2y172n1y4n6y311n2y789n8y773n1y124n3y71n2y157n3y3n1y39n4y2n2y314n2y354n4y174n2y1n",
  "3y29n2y188n5y62n2y956n2y9n3y3556n1y13n1y4n1y10n1y1n2y3n2y428n2y29947n2y269n3y227n5y382n2y",
  "86n2y95n1y151n3y147n3y127n1y16n2y249n1y21092n3y1n4y169n1y10n1y1n1y11n2y3n1y65n1y2n1y1082n1y",
  "48n1y1158n1y199n1y310n2y152n6y68n6y89n4y952n5y44n4y189n7y112n4y127n3y129n2y6n1y16n2y88n5y",
  "108n1y417n3y12n2y358n4y3n15y105n2y249n3y517n1y1n1y251n2y87n2y4n2y414n3y45n1y645n2y74n2y",
  "1323n5y17913n2y133n1y65n3y10n1y850n2y19974n1y7655n4y1n"]

def unifiedIdeographRuns : Runs := .ofText [
  "13312n6592y64n20992y23054n2y1n1y1n2y10n1y1n1y1n2y2n3y67030n42720y32n4154y6n222y2n5762y14n",
  "7473y5151n4939y5n4192y1n"]

def uppercaseRuns : Runs := .ofText [
  "65n26y101n23y1n7y33n1y1n1y1n1y1n1y1n1y1n1y1n1y1n1y1n1y1n1y1n1y1n1y1n1y1n1y1n1y1n1y1n1y1n1y",
  "1n1y1n1y1n1y1n1y1n1y1n1y1n1y1n1y1n1y1n1y2n1y1n1y1n1y1n1y1n1y1n1y1n1y1n1y2n1y1n1y1n1y1n1y1n",
  "1y1n1y1n1y1n1y1n1y1n1y1n1y1n1y1n1y1n1y1n1y1n1y1n1y1n1y1n1y1n1y1n1y1n1y1n1y1n2y1n1y1n1y3n2y",
  "1n1y1n2y1n3y2n4y1n2y1n3y3n2y1n2y1n1y1n1y1n2y1n1y2n1y1n2y1n3y1n1y1n2y3n1y7n1y2n1y2n1y2n1y1n",
  "1y1n1y1n1y1n1y1n1y1n1y1n1y2n1y1n1y1n1y1n1y1n1y1n1y1n1y1n1y1n1y2n1y2n1y1n3y1n1y1n1y1n1y1n1y",
  "1n1y1n1y1n1y1n1y1n1y1n1y1n1y1n1y1n1y1n1y1n1y1n1y1n1y1n1y1n1y1n1y1n1y1n1y1n1y1n1y1n1y1n1y1n",
  "1y1n1y1n1y7n2y1n2y2n1y1n4y1n1y1n1y1n1y1n1y289n1y1n1y3n1y8n1y6n1y1n3y1n1y1n2y1n17y1n9y35n1y",
  "2n3y3n1y1n1y1n1y1n1y1n1y1n1y1n1y1n1y1n1y1n1y1n1y1n1y5n1y2n1y1n2y2n51y48n1y1n1y1n1y1n1y1n1y",
  "1n1y1n1y1n1y1n1y1n1y1n1y1n1y1n1y1n1y1n1y1n1y1n1y9n1y1n1y1n1y1n1y1n1y1n1y1n1y1n1y1n1y1n1y1n",
  "1y1n1y1n1y1n1y1n1y1n1y1n1y1n1y1n1y1n1y1n1y1n1y1n1y1n1y1n1y1n1y1n1y1n2y1n1y1n1y1n1y1n1y1n1y",
  "1n1y2n1y1n1y1n1y1n1y1n1y1n1y1n1y1n1y1n1y1n1y1n1y1n1y1n1y1n1y1n1y1n1y1n1y1n1y1n1y1n1y1n1y1n",
  "1y1n1y1n1y1n1y1n1y1n1y1n1y1n1y1n1y1n1y1n1y1n1y1n1y1n1y1n1y1n1y1n1y1n1y1n1y1n1y1n1y1n1y1n1y",
  "1n1y1n1y1n1y1n1y2n38y2889n38y1n1y5n1y722n86y2202n43y2n3y320n1y1n1y1n1y1n1y1n1y1n1y1n1y1n1y",
  "1n1y1n1y1n1y1n1y1n1y1n1y1n1y1n1y1n1y1n1y1n1y1n1y1n1y1n1y1n1y1n1y1n1y1n1y1n1y1n1y1n1y1n1y1n",
  "1y1n1y1n1y1n1y1n1y1n1y1n1y1n1y1n1y1n1y1n1y1n1y1n1y1n1y1n1y1n1y1n1y1n1y1n1y1n1y1n1y1n1y1n1y",
  "1n1y1n1y1n1y1n1y1n1y1n1y1n1y1n1y1n1y1n1y1n1y1n1y1n1y1n1y1n1y1n1y1n1y1n1y1n1y1n1y1n1y1n1y9n",
  "1y1n1y1n1y1n1y1n1y1n1y1n1y1n1y1n1y1n1y1n1y1n1y1n1y1n1y1n1y1n1y1n1y1n1y1n1y1n1y1n1y1n1y1n1y",
  "1n1y1n1y1n1y1n1y1n1y1n1y1n1y1n1y1n1y1n1y1n1y1n1y1n1y1n1y1n1y1n1y1n1y1n1y1n1y1n1y1n1y1n1y1n",
  "1y1n1y1n1y1n1y9n8y8n6y10n8y8n8y8n6y11n1y1n1y1n1y1n1y8n8y72n4y12n4y12n4y12n5y11n4y262n1y4n1y",
  "3n3y2n3y2n1y3n5y6n1y1n1y1n1y1n4y2n4y10n2y5n1y26n16y19n1y818n26y1840n48y48n1y1n3y2n1y1n1y1n",
  "1y1n4y1n1y2n1y8n3y1n1y1n1y1n1y1n1y1n1y1n1y1n1y1n1y1n1y1n1y1n1y1n1y1n1y1n1y1n1y1n1y1n1y1n1y",
  "1n1y1n1y1n1y1n1y1n1y1n1y1n1y1n1y1n1y1n1y1n1y1n1y1n1y1n1y1n1y1n1y1n1y1n1y1n1y1n1y1n1y1n1y1n",
  "1y1n1y1n1y1n1y1n1y1n1y1n1y1n1y1n1y8n1y1n1y4n1y31053n1y1n1y1n1y1n1y1n1y1n1y1n1y1n1y1n1y1n1y",
  "1n1y1n1y1n1y1n1y1n1y1n1y1n1y1n1y1n1y1n1y1n1y1n1y1n1y19n1y1n1y1n1y1n1y1n1y1n1y1n1y1n1y1n1y1n",
  "1y1n1y1n1y1n1y1n1y135n1y1n1y1n1y1n1y1n1y1n1y1n1y3n1y1n1y1n1y1n1y1n1y1n1y1n1y1n1y1n1y1n1y1n",
  "1y1n1y1n1y1n1y1n1y1n1y1n1y1n1y1n1y1n1y1n1y1n1y1n1y1n1y1n1y1n1y1n1y1n1y1n1y1n1y1n1y10n1y1n1y",
  "1n2y1n1y1n1y1n1y1n1y4n1y1n1y2n1y1n1y3n1y1n1y1n1y1n1y1n1y1n1y1n1y1n1y1n1y1n1y1n5y1n5y1n1y1n",
  "1y1n1y1n1y1n1y1n1y1n1y1n4y1n1y6n1y5n1y1n1y28n1y22315n26y1221n40y136n36y156n11y1n15y1n7y1n2y",
  "1770n51y3053n32y21888n32y26016n26y26n26y26n26y26n1y1n2y2n1y2n2y2n4y1n8y26n26y26n2y1n4y2n8y",
  "1n7y27n2y1n4y1n5y1n1y3n7y27n26y26n26y26n26y26n26y26n26y26n26y30n25y33n25y33n25y33n25y33n25y",
  "33n1y4405n34y2062n26y6n26y6n26y1n"]

def variationSelectorRuns : Runs := .ofText [
  "6155n3y1n1y58864n16y852720n240y1n"]

def whiteSpaceRuns : Runs := .ofText [
  "9n5y18n1y100n1y26n1y5599n1y2431n11y29n2y5n1y47n1y4000n1y1n"]

def xidContinueRuns : Runs := .ofText [
  "48n10y7n26y4n1y1n26y47n1y10n1y1n1y2n1y5n23y1n31y1n458y4n12y14n5y7n1y1n1y17n117y1n2y3n3y1n1y",
  "6n5y1n1y1n20y1n83y1n139y1n5y2n166y1n38y2n1y6n41y8n45y1n1y1n2y1n2y1n1y8n27y4n4y29n11y5n74y4n",
  "102y1n8y2n10y1n19y2n1y16n59y2n101y14n54y4n1y2n1y2n46y18n28y4n11y5n24y1n6y9n74y1n129y2n10y1n",
  "19y1n8y2n2y2n22y1n7y1n1y3n4y2n9y2n2y2n4y8n1y4n2y1n5y2n12y10n1y1n1y2n3y1n6y4n2y2n22y1n7y1n2y",
  "1n2y1n2y2n1y1n5y4n2y2n3y3n1y7n4y1n1y7n16y11n3y1n9y1n3y1n22y1n7y1n2y1n5y2n10y1n3y1n3y2n1y15n",
  "4y2n10y9n7y1n3y1n8y2n2y2n22y1n7y1n2y1n5y2n9y2n2y2n3y7n3y4n2y1n5y2n10y1n1y16n2y1n6y3n3y1n4y",
  "3n2y1n1y1n2y3n2y3n3y3n12y4n5y3n3y1n4y2n1y6n1y14n10y16n13y1n3y1n23y1n16y2n9y1n3y1n4y7n2y1n3y",
  "2n1y2n4y2n10y16n4y1n8y1n3y1n23y1n10y1n5y2n9y1n3y1n4y7n2y6n2y1n4y2n10y1n3y12n13y1n3y1n51y1n",
  "3y1n5y5n4y7n5y2n10y10n6y1n3y1n18y3n24y1n9y1n1y2n7y3n1y4n6y1n1y1n8y6n10y2n2y13n58y5n15y1n10y",
  "39n2y1n1y1n5y1n24y1n1y1n23y2n5y1n1y1n7y1n10y2n4y32n1y23n2y6n10y11n1y1n1y1n1y4n10y1n36y4n20y",
  "1n18y1n36y9n1y57n74y6n78y2n38y1n1y5n1y2n43y1n333y1n4y2n7y1n1y1n4y2n41y1n4y2n33y1n4y2n7y1n1y",
  "1n4y2n15y1n57y1n4y2n67y2n3y9n9y14n16y16n86y2n6y3n620y2n17y1n26y5n75y3n11y7n22y9n22y11n20y",
  "12n13y1n3y1n2y12n84y3n1y4n2y2n10y33n3y1n11y6n89y7n43y5n70y10n31y1n12y4n12y10n40y2n5y11n44y",
  "4n26y6n11y37n28y4n63y1n29y2n11y6n10y13n1y8n14y1n16y49n77y3n10y17n9y12n116y12n56y8n10y3n49y",
  "2n9y7n43y2n3y16n3y1n39y5n534y2n6y2n38y2n6y2n8y1n1y1n1y1n1y1n31y2n53y1n7y1n1y3n3y1n7y3n4y2n",
  "6y4n13y5n3y1n7y66n2y19n1y28n1y13n1y16n13y51n13y4n1y3n12y17n1y4n1y2n10y1n1y2n6y6n1y1n1y1n1y",
  "1n16y2n4y5n5y4n1y17n41y2679n229y6n9y12n38y1n1y5n1y2n56y7n1y15n24y9n7y1n7y1n7y1n7y1n7y1n7y1n",
  "7y1n7y1n32y517n3y25n15y1n5y2n5y4n86y2n2y2n3y1n90y1n4y5n43y1n94y17n32y48n16y512n6592y64n",
  "22157y67n46y2n269y3n28y20n48y4n10y1n115y37n9y2n103y2n64y5n2y1n1y1n5y24n54y4n1y19n52y12n70y",
  "10n10y6n24y3n1y1n49y2n36y12n29y3n65y14n11y6n31y1n55y9n14y2n10y6n23y3n73y24n3y2n16y2n5y10n6y",
  "2n6y2n6y9n7y1n7y1n43y1n14y6n123y1n2y2n10y6n11172y12n23y4n49y8452n366y2n106y38n7y12n5y5n12y",
  "1n13y1n5y1n1y1n2y1n2y1n108y33n139y6n218y18n64y2n54y40n10y6n16y16n16y3n2y24n3y33n1y1n1y3n1y",
  "1n1y1n1y1n1y1n126y19n10y7n26y4n1y1n26y11n89y3n6y2n6y2n6y2n3y35n12y1n26y1n19y1n2y1n15y2n14y",
  "34n123y69n53y136n1y130n29y3n49y15n1y31n32y13n30y5n43y5n30y2n36y4n8y1n5y42n158y2n10y6n36y4n",
  "36y4n40y8n52y12n11y1n15y1n7y1n2y1n11y1n15y1n7y1n2y67n311y9n22y10n8y24n6y1n42y1n9y69n6y2n1y",
  "1n44y1n2y3n1y2n23y10n23y9n31y65n19y1n2y10n22y10n26y70n56y6n2y64n4y1n2y5n8y1n3y1n29y2n3y4n1y",
  "32n29y3n29y35n8y1n30y25n54y10n22y10n19y13n18y110n73y55n51y13n51y13n40y8n10y326n42y1n2y3n2y",
  "75n32y10n1y8n33y31n22y42n21y27n23y9n71y31n16y9n60y7n1y13n25y7n10y6n53y1n10y4n4y8n36y2n1y9n",
  "69y4n4y1n13y1n1y35n18y1n37y6n4y62n7y1n1y1n4y1n15y1n10y7n59y5n10y6n4y1n8y2n2y2n22y1n7y1n2y1n",
  "5y1n10y2n2y2n3y2n1y6n1y5n7y2n7y3n5y139n75y5n10y4n4y30n70y1n1y8n10y166n54y2n9y23n6y34n65y3n",
  "1y11n10y38n57y7n10y54n27y2n15y4n10y6n7y185n59y101n74y21n8y2n1y2n8y1n2y1n30y1n2y2n9y12n10y",
  "70n8y2n46y2n8y1n2y27n63y8n1y8n74y3n1y18n73y263n9y1n45y1n9y15n10y24n30y2n22y1n14y73n7y1n2y1n",
  "44y3n1y1n2y1n9y8n10y6n6y1n2y1n37y1n2y1n6y7n10y310n23y9n17y1n41y3n5y13n10y86n1y79n922y102n",
  "111y17n196y2636n97y15n1072y16n22y4010n583y8633n569y7n31y1n10y6n79y1n10y6n30y2n5y11n55y9n4y",
  "12n10y9n21y5n19y688n64y128n75y4n57y7n17y64n2y1n2y11n2y14n6136y8n1238y42n9y8935n4y1n7y1n2y1n",
  "291y15n1y29n3y2n1y14n4y8n396y2308n107y5n13y3n9y7n10y3n2y4705n46y2n23y542n5y3n6y8n8y2n7y30n",
  "4y148n3y443n85y1n71y1n2y2n1y2n2y2n4y1n12y1n1y1n7y1n65y1n4y2n8y1n7y1n28y1n4y1n5y1n1y3n7y1n",
  "340y2n25y1n25y1n31y1n25y1n31y1n25y1n31y1n25y1n31y1n25y1n8y2n50y512n55y4n50y8n1y14n1y22n5y1n",
  "15y1104n31y6n6y213n7y1n17y2n7y1n2y1n5y5n62y33n1y112n45y3n14y2n10y4n1y321n31y17n58y470n42y",
  "742n7y1n4y1n2y1n15y1n197y11n7y41n76y4n10y1190n4y1n27y1n2y1n1y2n1y1n10y1n4y1n1y1n1y6n1y4n1y",
  "1n1y1n1y1n3y1n2y1n1y2n1y1n1y1n1y1n1y1n1y1n2y1n1y2n4y1n7y1n4y1n4y1n1y1n10y1n17y5n3y1n5y1n17y",
  "3380n10y1030n42720y32n4154y6n222y2n5762y14n7473y3103n542y1506n4939y5n4192y712016n240y1n"]

def xidStartRuns : Runs := .ofText [
  "65n26y6n26y47n1y10n1y4n1y5n23y1n31y1n458y4n12y14n5y7n1y1n1y129n5y1n2y3n3y1n1y6n1y1n3y1n1y1n",
  "20y1n83y1n139y8n166y1n38y2n1y6n41y71n27y4n4y45n43y35n2y1n99y1n1y15n2y7n2y10n3y2n1y16n1y1n",
  "30y29n89y11n1y24n33y9n2y4n1y5n22y4n1y9n1y3n1y23n25y7n11y5n24y1n6y17n42y58n54y3n1y18n1y7n10y",
  "15n16y4n8y2n2y2n22y1n7y1n1y3n4y3n1y16n1y13n2y1n3y14n2y10n1y8n6y4n2y2n22y1n7y1n2y1n2y1n2y31n",
  "4y1n1y19n3y16n9y1n3y1n22y1n7y1n2y1n5y3n1y18n1y15n2y23n1y11n8y2n2y2n22y1n7y1n2y1n5y3n1y30n2y",
  "1n3y15n1y17n1y1n6y3n3y1n4y3n2y1n1y1n2y3n2y3n3y3n12y22n1y52n8y1n3y1n23y1n16y3n1y26n3y2n1y2n",
  "2y30n1y4n8y1n3y1n23y1n10y1n5y3n1y31n2y1n2y15n2y17n9y1n3y1n41y2n1y16n1y5n3y8n3y24n6y5n18y3n",
  "24y1n9y1n1y2n7y58n48y1n1y13n7y58n2y1n1y1n5y1n24y1n1y1n10y1n1y10n1y2n5y1n1y21n4y32n1y63n8y1n",
  "36y27n5y115n43y20n1y16n6y4n4y3n1y3n2y7n3y4n13y12n1y17n38y1n1y5n1y2n43y1n333y1n4y2n7y1n1y1n",
  "4y2n41y1n4y2n33y1n4y2n7y1n1y1n4y2n15y1n57y1n4y2n67y37n16y16n86y2n6y3n620y2n17y1n26y5n75y3n",
  "11y7n18y13n19y14n18y14n13y1n3y15n52y35n1y4n1y67n89y7n41y1n1y5n70y10n31y49n30y2n5y11n44y4n",
  "26y54n23y9n53y82n1y93n47y17n8y54n30y13n2y10n44y26n36y41n3y10n36y2n9y7n43y2n3y41n4y1n6y1n2y",
  "3n1y5n192y64n278y2n6y2n38y2n6y2n8y1n1y1n1y1n1y1n31y2n53y1n7y1n1y3n3y1n7y3n4y2n6y4n13y5n3y1n",
  "7y116n1y13n1y16n13y101n1y4n1y2n10y1n1y2n6y6n1y1n1y1n1y1n16y2n4y5n5y4n1y17n41y2679n229y6n4y",
  "3n2y12n38y1n1y5n1y2n56y7n1y16n23y9n7y1n7y1n7y1n7y1n7y1n7y1n7y1n7y550n3y25n9y7n5y2n5y4n86y6n",
  "3y1n90y1n4y5n43y1n94y17n32y48n16y512n6592y64n22157y67n46y2n269y3n16y10n2y20n47y16n31y2n80y",
  "39n9y2n103y2n64y5n2y1n1y1n5y24n16y1n3y1n4y1n23y29n52y14n50y62n6y3n1y1n2y11n28y10n23y25n29y",
  "7n47y28n1y16n5y1n10y10n5y1n41y23n3y1n8y20n23y3n1y3n50y1n1y3n2y2n5y2n1y1n1y24n3y2n11y7n3y12n",
  "6y2n6y2n6y9n7y1n7y1n43y1n14y6n115y29n11172y12n23y4n49y8452n366y2n106y38n7y12n5y5n1y1n10y1n",
  "13y1n5y1n1y1n2y1n2y1n108y33n139y6n218y18n64y2n54y40n10y119n1y1n1y3n1y1n1y1n1y1n1y1n126y36n",
  "26y6n26y11n56y2n31y3n6y2n6y2n6y2n3y35n12y1n26y1n19y1n2y1n15y2n14y34n123y69n53y267n29y3n49y",
  "47n32y13n30y5n38y10n30y2n36y4n8y1n5y42n158y18n36y4n36y4n40y8n52y12n11y1n15y1n7y1n2y1n11y1n",
  "15y1n7y1n2y67n311y9n22y10n8y24n6y1n42y1n9y69n6y2n1y1n44y1n2y3n1y2n23y10n23y9n31y65n19y1n2y",
  "10n22y10n26y70n56y6n2y64n1y15n4y1n3y1n29y42n29y3n29y35n8y1n28y27n54y10n22y10n19y13n18y110n",
  "73y55n51y13n51y13n36y348n42y6n2y78n29y10n1y8n22y42n18y46n21y27n23y12n53y57n2y2n1y13n45y32n",
  "25y26n36y29n1y2n1y8n35y3n1y12n48y14n4y21n1y1n1y35n18y1n25y19n2y63n7y1n1y1n4y1n15y1n10y7n47y",
  "38n8y2n2y2n22y1n7y1n2y1n5y3n1y18n1y12n5y158n53y18n4y20n3y30n48y20n2y1n1y184n47y41n4y36n48y",
  "20n1y59n43y13n1y71n27y37n7y185n44y116n64y31n8y2n1y2n8y1n2y1n24y15n1y1n1y94n8y2n39y16n1y1n1y",
  "28n1y10n40y7n1y21n1y11n46y19n1y18n73y263n9y1n37y17n1y49n30y112n7y1n2y1n38y21n1y25n6y1n2y1n",
  "32y14n1y327n19y15n1y1n13y1n34y124n1y79n922y102n111y17n196y2636n97y15n1072y17n6y4025n583y",
  "8633n569y7n31y17n79y17n30y18n48y16n4y31n21y5n19y688n64y128n75y5n1y66n13y64n2y1n1y28n6136y8n",
  "1238y42n9y8935n4y1n7y1n2y1n291y15n1y29n3y2n1y14n4y8n396y2308n107y5n13y3n9y7n10y5990n85y1n",
  "71y1n2y2n1y2n2y2n4y1n12y1n1y1n7y1n65y1n4y2n8y1n7y1n28y1n4y1n5y1n1y3n7y1n340y2n25y1n25y1n31y",
  "1n25y1n31y1n25y1n31y1n25y1n31y1n25y1n8y1844n31y6n6y261n62y146n45y10n7y16n1y321n30y18n44y",
  "484n28y756n7y1n4y1n2y1n15y1n197y59n68y7n1y1204n4y1n27y1n2y1n1y2n1y1n10y1n4y1n1y1n1y6n1y4n1y",
  "1n1y1n1y1n3y1n2y1n1y2n1y1n1y1n1y1n1y1n1y1n2y1n1y2n4y1n7y1n4y1n4y1n1y1n10y1n17y5n3y1n5y1n17y",
  "4420n42720y32n4154y6n222y2n5762y14n7473y3103n542y1506n4939y5n4192y1n"]

/-- The properties by their names in lower case without separators. -/
def propertyNames : List (String × Runs) := [
  ("ahex", asciiHexDigitRuns), ("asciihexdigit", asciiHexDigitRuns), ("alpha", alphabeticRuns),
   ("alphabetic", alphabeticRuns), ("bidic", bidiControlRuns), ("bidicontrol", bidiControlRuns),
   ("bidim", bidiMirroredRuns), ("bidimirrored", bidiMirroredRuns), ("ci", caseIgnorableRuns),
   ("caseignorable", caseIgnorableRuns), ("cased", casedRuns),
   ("cwcf", changesWhenCasefoldedRuns), ("changeswhencasefolded", changesWhenCasefoldedRuns),
   ("cwcm", changesWhenCasemappedRuns), ("changeswhencasemapped", changesWhenCasemappedRuns),
   ("cwl", changesWhenLowercasedRuns), ("changeswhenlowercased", changesWhenLowercasedRuns),
   ("cwt", changesWhenTitlecasedRuns), ("changeswhentitlecased", changesWhenTitlecasedRuns),
   ("cwu", changesWhenUppercasedRuns), ("changeswhenuppercased", changesWhenUppercasedRuns),
   ("dash", dashRuns), ("di", defaultIgnorableCodePointRuns),
   ("defaultignorablecodepoint", defaultIgnorableCodePointRuns), ("dep", deprecatedRuns),
   ("deprecated", deprecatedRuns), ("dia", diacriticRuns), ("diacritic", diacriticRuns),
   ("emoji", emojiRuns), ("ecomp", emojiComponentRuns), ("emojicomponent", emojiComponentRuns),
   ("emod", emojiModifierRuns), ("emojimodifier", emojiModifierRuns),
   ("ebase", emojiModifierBaseRuns), ("emojimodifierbase", emojiModifierBaseRuns),
   ("epres", emojiPresentationRuns), ("emojipresentation", emojiPresentationRuns),
   ("extpict", extendedPictographicRuns), ("extendedpictographic", extendedPictographicRuns),
   ("ext", extenderRuns), ("extender", extenderRuns), ("grbase", graphemeBaseRuns),
   ("graphemebase", graphemeBaseRuns), ("grext", graphemeExtendRuns),
   ("graphemeextend", graphemeExtendRuns), ("hex", hexDigitRuns), ("hexdigit", hexDigitRuns),
   ("idsb", idsBinaryOperatorRuns), ("idsbinaryoperator", idsBinaryOperatorRuns),
   ("idst", idsTrinaryOperatorRuns), ("idstrinaryoperator", idsTrinaryOperatorRuns),
   ("idc", idContinueRuns), ("idcontinue", idContinueRuns), ("ids", idStartRuns),
   ("idstart", idStartRuns), ("ideo", ideographicRuns), ("ideographic", ideographicRuns),
   ("joinc", joinControlRuns), ("joincontrol", joinControlRuns),
   ("loe", logicalOrderExceptionRuns), ("logicalorderexception", logicalOrderExceptionRuns),
   ("lower", lowercaseRuns), ("lowercase", lowercaseRuns), ("math", mathRuns),
   ("nchar", noncharacterCodePointRuns), ("noncharactercodepoint", noncharacterCodePointRuns),
   ("patsyn", patternSyntaxRuns), ("patternsyntax", patternSyntaxRuns),
   ("patws", patternWhiteSpaceRuns), ("patternwhitespace", patternWhiteSpaceRuns),
   ("pcm", prependedConcatenationMarkRuns),
   ("prependedconcatenationmark", prependedConcatenationMarkRuns), ("qmark", quotationMarkRuns),
   ("quotationmark", quotationMarkRuns), ("radical", radicalRuns), ("ri", regionalIndicatorRuns),
   ("regionalindicator", regionalIndicatorRuns), ("sterm", sentenceTerminalRuns),
   ("sentenceterminal", sentenceTerminalRuns), ("sd", softDottedRuns),
   ("softdotted", softDottedRuns), ("term", terminalPunctuationRuns),
   ("terminalpunctuation", terminalPunctuationRuns), ("uideo", unifiedIdeographRuns),
   ("unifiedideograph", unifiedIdeographRuns), ("upper", uppercaseRuns),
   ("uppercase", uppercaseRuns), ("vs", variationSelectorRuns),
   ("variationselector", variationSelectorRuns), ("wspace", whiteSpaceRuns),
   ("whitespace", whiteSpaceRuns), ("space", whiteSpaceRuns), ("xidc", xidContinueRuns),
   ("xidcontinue", xidContinueRuns), ("xids", xidStartRuns), ("xidstart", xidStartRuns)]

/-- Whether the character has the property whose runs are given. -/
def hasProperty (runs : Runs) (c : Char) : Bool := runs.labelAt c.toNat == "y"

end GrammarProfile.Text
